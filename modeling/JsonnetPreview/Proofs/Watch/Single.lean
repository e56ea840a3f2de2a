import JsonnetPreview.Watch.Watcher

namespace JsonnetPreview

/-- The file at a place has new contents after the event. -/
def FileEvent.Saves (e : FileEvent) (directory : Path) (place : Place) : Prop :=
  ∃ path, e.savedPath? = some path ∧ Path.place directory path = .ok place

namespace SaveHandler

variable {h : SaveHandler} {directory : Path} {now : Number} {e : FileEvent}

def reported (h : SaveHandler) (now : Number) : SaveHandler := { h with lastSaved := now }

theorem isSave_eq_true_iff : h.isSave directory e = .ok true ↔ e.Saves directory h.target := by
  cases hpath : e.savedPath? with
  | none => simp [isSave, FileEvent.Saves, hpath]
  | some path =>
      cases hplace : Path.place directory path with
      | error fault => simp [isSave, FileEvent.Saves, hpath, hplace]
      | ok place => simp [isSave, FileEvent.Saves, hpath, hplace]

theorem handle_eq (h : SaveHandler) (directory : Path) (now : Number) (e : FileEvent) :
    h.handle directory now e =
      match h.isSave directory e, h.isTooSoon now with
      | .error fault, _ => .error fault
      | .ok false, _ => .ok (false, h)
      | .ok true, .error fault => .error fault
      | .ok true, .ok true => .ok (false, h)
      | .ok true, .ok false => .ok (true, h.reported now) := by
  rw [handle]
  rcases h.isSave directory e with fault | _ | _
  · rfl
  · rfl
  · rcases h.isTooSoon now with fault | _ | _ <;> rfl

theorem handle_of_saves (he : e.Saves directory h.target) (hnow : h.isTooSoon now = .ok false) :
    h.handle directory now e = .ok (true, h.reported now) := by
  rw [handle_eq, isSave_eq_true_iff.2 he, hnow]

theorem handle_eq_ok {b : Bool} {h' : SaveHandler} (hh : h.handle directory now e = .ok (b, h')) :
    (b = false ∧ h' = h) ∨ (b = true ∧ h' = h.reported now ∧ e.Saves directory h.target) := by
  rw [handle_eq] at hh
  split at hh
  case h_2 | h_4 =>
    cases hh
    exact .inl ⟨rfl, rfl⟩
  case h_5 hsave _ =>
    cases hh
    exact .inr ⟨rfl, rfl, isSave_eq_true_iff.1 hsave⟩
  case h_1 | h_3 => cases hh

end SaveHandler

namespace Watcher

variable {w w' : Watcher} {n : Nat} {h : SaveHandler}

structure Idle (w : Watcher) : Prop where
  handlers : w.handlers = []
  active : w.active = none

/-- There is one handler, and it is the one that goes when the watch is moved. -/
structure Watches (w : Watcher) (n : Nat) (h : SaveHandler) : Prop where
  handlers : w.handlers = [(n, h)]
  active : ∃ directory, w.active = some (n, directory)

theorem Idle.unschedule (hw : w.Idle) : w.unschedule.handlers = [] := by
  rw [Watcher.unschedule, hw.active]
  exact hw.handlers

theorem Watches.unschedule (hw : w.Watches n h) : w.unschedule.handlers = [] := by
  obtain ⟨directory, hactive⟩ := hw.active
  simp [Watcher.unschedule, hactive, hw.handlers]

theorem run_handlers (w : Watcher) : w.run.handlers = w.handlers := by
  unfold run
  split <;> rfl

theorem run_active (w : Watcher) : w.run.active = w.active := by
  unfold run
  split <;> rfl

theorem watches_schedule (hw : w.handlers = []) (place : Place) :
    (w.schedule place).run.Watches w.scheduled { target := place, debounce } := by
  constructor
  · rw [run_handlers, schedule, hw]
    rfl
  · exact ⟨_, by rw [run_active]; rfl⟩

section PlaceOf

variable {files : FileTree} {directory : Path} {file : Text} {place : Place}

theorem placeOf_of_error {fault : FileFault} (h : Path.place directory file = .error fault) :
    placeOf files directory file = .error (.file fault) := by
  rw [placeOf, h]
  rfl

theorem placeOf_of_ok (h : Path.place directory file = .ok place) :
    placeOf files directory file =
      match files.probe ⟨.root, place⟩ with
      | .error fault => .error (.file fault)
      | .ok none => .error (.missing file)
      | .ok (some _) => .ok place := by
  rw [placeOf, h]
  rcases hnode : files.probe ⟨.root, place⟩ with fault | _ | node
  all_goals
    show (files.probe ⟨.root, place⟩).mapError WatchFault.file >>= _ = _
    rw [hnode]
    rfl

theorem placeOf_eq_ok_iff :
    placeOf files directory file = .ok place ↔
      Path.place directory file = .ok place ∧
        ∃ node, files.probe ⟨.root, place⟩ = .ok (some node) := by
  cases hplace : Path.place directory file with
  | error fault =>
      rw [placeOf_of_error hplace]
      exact ⟨nofun, nofun⟩
  | ok q =>
      rw [placeOf_of_ok hplace, Except.ok.injEq]
      constructor
      · intro h
        rcases hnode : files.probe ⟨.root, q⟩ with fault | _ | node
        · simp [hnode] at h
        · simp [hnode] at h
        · obtain rfl : q = place := by simpa [hnode] using h
          exact ⟨rfl, node, hnode⟩
      · rintro ⟨rfl, node, hnode⟩
        rw [hnode]

end PlaceOf

theorem watch_eq_ok {files : FileTree} {directory : Path} {file : Text}
    (hw : w.unschedule.handlers = []) (h : w.watch files directory file = .ok w') :
    ∃ n place, Path.place directory file = .ok place ∧
      w'.Watches n { target := place, debounce } := by
  cases hplace : placeOf files directory file with
  | error fault => simp [watch, hplace, Except.map] at h
  | ok place =>
      simp only [watch, hplace, Except.map, Except.ok.injEq] at h
      exact ⟨_, place, (placeOf_eq_ok_iff.1 hplace).1, h ▸ watches_schedule hw place⟩

def keep (w : Watcher) (n : Nat) (h : SaveHandler) : Watcher := { w with handlers := [(n, h)] }

theorem Watches.keep (hw : w.Watches n h) : w.keep n h = w := by
  rw [Watcher.keep, ← hw.handlers]

theorem Watches.keep_watches (hw : w.Watches n h) (h' : SaveHandler) :
    (w.keep n h').Watches n h' :=
  ⟨rfl, hw.active⟩

theorem Idle.dispatch (hw : w.Idle) (directory : Path) (now : Number) (e : FileEvent) :
    w.dispatch directory now e = .ok (0, w) := by
  obtain ⟨handlers, scheduled, active, isRunning, calls⟩ := w
  obtain rfl : handlers = [] := hw.handlers
  rfl

theorem Watches.dispatch (hw : w.Watches n h) (directory : Path) (now : Number) (e : FileEvent) :
    w.dispatch directory now e =
      (h.handle directory now e).map fun (b, h') => (b.toNat, w.keep n h') := by
  rw [Watcher.dispatch, hw.handlers]
  cases hh : h.handle directory now e with
  | error fault => simp [hh, bind, Except.bind, Except.map]
  | ok r =>
      obtain ⟨b, h'⟩ := r
      cases b <;> simp [hh, bind, Except.bind, Except.map, pure, Except.pure, Watcher.keep]

end Watcher

end JsonnetPreview
