import JsonnetPreview.Decimal.Number
import JsonnetPreview.World.FileFault
import JsonnetPreview.World.Path

namespace JsonnetPreview

inductive EventKind where
  | modified
  | created
  | deleted
  | moved
  | closed
  | opened
  deriving DecidableEq, Repr

structure FileEvent where
  kind : EventKind
  isDirectory : Bool
  source : Text
  destination : Text := []
  deriving DecidableEq, Repr

/-- The file that has new contents after an event, if any has. Editors write a file in place, write
a new one, or move one to its place. -/
def FileEvent.savedPath? (e : FileEvent) : Option Text :=
  if e.isDirectory then none
  else
    match e.kind with
    | .modified | .created => some e.source
    | .moved => some e.destination
    | .deleted | .closed | .opened => none

inductive WatchFault where
  | file (fault : FileFault)
  /-- A file that is not there cannot be watched. -/
  | missing (path : Text)
  | timeTooLarge (cause : Number.TooLarge)
  deriving DecidableEq, Repr

def WatchFault.message : WatchFault → Text
  | file fault => fault.message
  | missing path => "Cannot watch non-existent file: " ++ path
  | timeTooLarge cause => cause.message

structure SaveHandler where
  target : Place
  debounce : Number
  /-- When a save was last reported; zero before the first one. -/
  lastSaved : Number := .float Binary64.zero
  deriving DecidableEq

namespace SaveHandler

def isSave (h : SaveHandler) (directory : Path) (e : FileEvent) : Except WatchFault Bool :=
  match e.savedPath? with
  | none => .ok false
  | some path =>
    match Path.place directory path with
    | .ok place => .ok (place = h.target)
    | .error fault => .error (.file fault)

def isTooSoon (h : SaveHandler) (now : Number) : Except WatchFault Bool :=
  match now.sub h.lastSaved with
  | .ok elapsed => .ok (elapsed.le h.debounce)
  | .error cause => .error (.timeTooLarge cause)

/-- Whether an event is reported, and the handler after it. -/
def handle (h : SaveHandler) (directory : Path) (now : Number) (e : FileEvent) :
    Except WatchFault (Bool × SaveHandler) := do
  if !(← h.isSave directory e) then return (false, h)
  if ← h.isTooSoon now then return (false, h)
  return (true, { h with lastSaved := now })

end SaveHandler
end JsonnetPreview
