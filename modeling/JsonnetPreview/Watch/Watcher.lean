import JsonnetPreview.Table
import JsonnetPreview.Watch.Handler
import JsonnetPreview.World.FileTree

namespace JsonnetPreview

inductive WatchCall where
  | schedule (directory : Text)
  | unschedule (directory : Text)
  | start
  | stop
  | join
  deriving DecidableEq, Repr

structure Watcher where
  /-- The handlers that get events, by the number of their watch. -/
  handlers : List (Nat × SaveHandler) := []
  /-- How many watches there have been. -/
  scheduled : Nat := 0
  /-- The watch that is moved when another document becomes active. -/
  active : Option (Nat × Text) := none
  isRunning : Bool := false
  calls : List WatchCall := []

namespace Watcher

def debounce : Number := .float (Binary64.ofScaled (Nat.pow 2 1073))

def unschedule (w : Watcher) : Watcher :=
  match w.active with
  | none => w
  | some (n, directory) =>
    { w with
      handlers := w.handlers.filter (·.1 ≠ n)
      active := none
      calls := w.calls ++ [.unschedule directory] }

def schedule (w : Watcher) (place : Place) : Watcher :=
  let directory := Path.ofPlace place.dropLast
  { w with
    handlers := w.handlers ++ [(w.scheduled, { target := place, debounce })]
    scheduled := w.scheduled + 1
    active := some (w.scheduled, directory)
    calls := w.calls ++ [.schedule directory] }

def run (w : Watcher) : Watcher :=
  if w.isRunning then w else { w with isRunning := true, calls := w.calls ++ [.start] }

def placeOf (files : FileTree) (directory : Path) (file : Text) : Except WatchFault Place := do
  let place ← (Path.place directory file).mapError .file
  match ← (files.probe ⟨.root, place⟩).mapError .file with
  | none => .error (.missing file)
  | some _ => .ok place

def watch (w : Watcher) (files : FileTree) (directory : Path) (file : Text) :
    Except WatchFault Watcher :=
  (placeOf files directory file).map fun place => (w.unschedule.schedule place).run

/-- Watch nothing any more. The handlers stay where they are. -/
def stop (w : Watcher) : Watcher :=
  if w.isRunning then
    { w with active := none, isRunning := false, calls := w.calls ++ [.stop, .join] }
  else { w with active := none }

def dispatch (w : Watcher) (directory : Path) (now : Number) (e : FileEvent) :
    Except WatchFault (Nat × Watcher) := do
  let handled ← w.handlers.mapM fun (n, h) => do return (n, ← h.handle directory now e)
  return ((handled.filter (·.2.1)).length,
    { w with handlers := handled.map fun (n, _, h) => (n, h) })

end Watcher
end JsonnetPreview
