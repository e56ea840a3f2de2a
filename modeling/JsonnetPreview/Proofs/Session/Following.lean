import JsonnetPreview.Proofs.Session.Settings
import JsonnetPreview.Proofs.Watch.Single

namespace JsonnetPreview

namespace Session

/-- The document that was opened last of those that the watch could be moved to, and the documents
that have been opened since. -/
structure Trail where
  followed : Text
  missed : List Text := []

namespace Trail

def current (t : Trail) : Text := t.missed.getLast?.getD t.followed

def miss (t : Trail) (path : Text) : Trail := { t with missed := t.missed ++ [path] }

theorem current_miss (t : Trail) (path : Text) : (t.miss path).current = path := by
  rw [current, miss, List.getLast?_concat]
  rfl

end Trail

/-- The trail begins with a start that succeeds, and again with each document that is found. -/
def trailAfter (s : Session) : Option Trail → Action → Option Trail
  | t, .start =>
    match s.start.2 with
    | none => some { followed := s.state.path }
    | some _ => t
  | some t, .switchTo path =>
    match (s.switchTo path).2 with
    | none => some { followed := path }
    | some _ => some (t.miss path)
  | t, _ => t

theorem trailAfter_start {s : Session} (h : s.start.2 = none) (t : Option Trail) :
    s.trailAfter t .start = some { followed := s.state.path } := by
  simp only [trailAfter, h]

theorem trailAfter_missed {s : Session} {path : Text} (h : (s.switchTo path).2 ≠ none) (t : Trail) :
    s.trailAfter (some t) (.switchTo path) = some (t.miss path) := by
  obtain ⟨fault, hfault⟩ := Option.ne_none_iff_exists'.1 h
  simp only [trailAfter, hfault]

/-- Any actions but a stop, and the trail after them. -/
inductive Watched : Session → Option Trail → Prop
  | create {path config w s} (h : create path config w = .ok s) : Watched s none
  | perform {s t} (a : Action) (ha : a ≠ .stop) (h : Watched s t) :
      Watched (s.perform a) (s.trailAfter t a)

/-- One handler is there, and it is the one for the document at the beginning of the trail. -/
structure Follows (s : Session) (t : Trail) (n : Nat) (h : SaveHandler) : Prop where
  watches : s.watcher.Watches n h
  target : Path.place s.world.directory t.followed = .ok h.target
  debounce : h.debounce = Watcher.debounce
  path : s.state.path = t.current

theorem Follows.keep {s : Session} {t : Trail} {n : Nat} {h h' : SaveHandler}
    (hs : s.Follows t n h) (htarget : h'.target = h.target) (hdebounce : h'.debounce = h.debounce) :
    Follows { s with watcher := s.watcher.keep n h' } t n h' where
  watches := hs.watches.keep_watches h'
  target := hs.target.trans (congrArg _ htarget.symm)
  debounce := hdebounce.trans hs.debounce
  path := hs.path

/-- The path can be resolved, and something is there. -/
def Found (s : Session) (path : Text) : Prop :=
  ∃ place, Path.place s.world.directory path = .ok place ∧
    ∃ node, s.world.files.probe ⟨.root, place⟩ = .ok (some node)

theorem refresh_found (s : Session) (path : Text) : s.refresh.Found path ↔ s.Found path := by
  rw [Found, Found, refresh_directory, refresh_files]

theorem follow_fault_iff (s : Session) : s.follow.2 = none ↔ s.Found s.state.path := by
  have hfound : s.Found s.state.path ↔
      ∃ place, Watcher.placeOf s.world.files s.world.directory s.state.path = .ok place :=
    exists_congr fun _ => Watcher.placeOf_eq_ok_iff.symm
  rw [hfound, follow, watch, Watcher.watch]
  cases Watcher.placeOf s.world.files s.world.directory s.state.path with
  | error fault => simp [Except.map]
  | ok place => simp [Except.map]

theorem start_fault_iff (s : Session) : s.start.2 = none ↔ s.Found s.state.path := by
  rw [start, follow_fault_iff, refresh_found, refresh_path]

theorem follow_cases {s : Session} (hs : s.watcher.unschedule.handlers = []) :
    (∃ fault, s.follow = (s, some fault)) ∨
      ∃ w n h, s.follow = ({ s with watcher := w }, none) ∧
        Follows { s with watcher := w } { followed := s.state.path } n h := by
  cases hwatch : s.watcher.watch s.world.files s.world.directory s.state.path with
  | error fault =>
      left
      exact ⟨.watch fault, by simp only [follow, watch, hwatch]⟩
  | ok w =>
      right
      obtain ⟨n, place, hplace, hw⟩ := Watcher.watch_eq_ok hs hwatch
      exact ⟨w, n, _, by simp only [follow, watch, hwatch], hw, hplace, rfl, rfl⟩

theorem handleEvent_of_idle {s : Session} (h : s.watcher.Idle) (now : Number) (e : FileEvent) :
    s.handleEvent now e = (s, none) := by
  simp only [handleEvent, h.dispatch]
  rfl

section Watches

variable {s : Session} {n : Nat} {h : SaveHandler} (hs : s.watcher.Watches n h)

include hs

theorem switchTo_of_watches (path : Text) :
    s.switchTo path = (s.select path).refresh.follow := by
  have hactive : (s.select path).refresh.watcher.active.isSome := by
    obtain ⟨directory, hactive⟩ := hs.active
    rw [refresh_watcher, select, hactive]
    rfl
  rw [switchTo, if_pos hactive]

theorem switchTo_fault_iff (path : Text) : (s.switchTo path).2 = none ↔ s.Found path := by
  rw [switchTo_of_watches hs, follow_fault_iff, refresh_found, refresh_path]
  rfl

theorem handleEvent_of_watches (now : Number) (e : FileEvent) :
    s.handleEvent now e =
      match h.handle s.world.directory now e with
      | .ok (b, h') => ({ s with watcher := s.watcher.keep n h' }.refreshTimes b.toNat, none)
      | .error fault => (s, some (.watch fault)) := by
  rw [handleEvent, hs.dispatch]
  cases h.handle s.world.directory now e with
  | error fault => rfl
  | ok r => rfl

theorem handleEvent_of_saves {now : Number} {e : FileEvent}
    (he : e.Saves s.world.directory h.target) (hnow : h.isTooSoon now = .ok false) :
    s.handleEvent now e =
      ({ s with watcher := s.watcher.keep n (h.reported now) }.refresh, none) := by
  rw [handleEvent_of_watches hs, SaveHandler.handle_of_saves he hnow]
  rfl

theorem tells_handleEvent_of_saves {now : Number} {e : FileEvent}
    (he : e.Saves s.world.directory h.target) (hnow : h.isTooSoon now = .ok false) :
    s.Tells (s.handleEvent now e).1 := by
  rw [handleEvent_of_saves hs he hnow]
  exact tells_refresh { s with watcher := s.watcher.keep n (h.reported now) }

theorem handleEvent_of_not_saves (now : Number) {e : FileEvent}
    (he : ¬e.Saves s.world.directory h.target) : (s.handleEvent now e).1 = s := by
  rw [handleEvent_of_watches hs]
  cases hhandle : h.handle s.world.directory now e with
  | error fault => rfl
  | ok r =>
      obtain ⟨b, h'⟩ := r
      rcases SaveHandler.handle_eq_ok hhandle with ⟨rfl, rfl⟩ | ⟨-, -, hsaves⟩
      · show { s with watcher := s.watcher.keep n _ } = s
        rw [hs.keep]
      · exact absurd hsaves he

end Watches

def OnTrail (s : Session) : Option Trail → Prop
  | none => s.watcher.Idle
  | some t => ∃ n h, s.Follows t n h

namespace OnTrail

variable {s s' : Session} {t : Option Trail}

theorem unschedule (h : s.OnTrail t) : s.watcher.unschedule.handlers = [] := by
  cases t with
  | none => exact Watcher.Idle.unschedule h
  | some t =>
      obtain ⟨n, handler, h⟩ := h
      exact h.watches.unschedule

theorem congr (h : s.OnTrail t) (hpath : s'.state.path = s.state.path)
    (hwatcher : s'.watcher = s.watcher) (hdirectory : s'.world.directory = s.world.directory) :
    s'.OnTrail t := by
  cases t with
  | none =>
      rw [OnTrail, hwatcher]
      exact h
  | some t =>
      obtain ⟨n, handler, h⟩ := h
      refine ⟨n, handler, hwatcher ▸ h.watches, ?_, h.debounce, hpath.trans h.path⟩
      rw [hdirectory]
      exact h.target

theorem refresh (h : s.OnTrail t) : s.refresh.OnTrail t :=
  h.congr s.refresh_path s.refresh_watcher s.refresh_directory

theorem refreshTimes (h : s.OnTrail t) (n : Nat) : (s.refreshTimes n).OnTrail t := by
  induction n generalizing s with
  | zero => exact h
  | succ n ih => exact ih h.refresh

theorem applyPayload (h : s.OnTrail t) (p : Payload) : (s.applyPayload p).OnTrail t :=
  h.congr (applyPayload_path s p)
    (congrArg Surroundings.watcher (s.applyPayload_surroundings p))
    (congrArg (·.scene.2) (s.applyPayload_surroundings p))

theorem setFormat (h : s.OnTrail t) (name : Text) : (s.setFormat name).1.OnTrail t := by
  have hformat : (s.withFormat name).OnTrail t := h.congr rfl rfl rfl
  by_cases hname : (OutputFormat.ofName? name).isSome
  · cases hcache : s.cache.get? (some s.state.path) with
    | some p =>
        rw [setFormat_of_get? hname hcache]
        exact hformat.applyPayload p
    | none =>
        rw [setFormat_of_get?_none hname hcache]
        exact hformat.refresh
  · rw [setFormat_of_none (Option.not_isSome_iff_eq_none.1 hname)]
    exact h

theorem start (h : s.OnTrail t) : s.start.1.OnTrail (s.trailAfter t .start) := by
  rcases follow_cases h.refresh.unschedule with ⟨fault, hfollow⟩ | ⟨w, n, handler, hfollow, hw⟩
  · simp only [trailAfter, Session.start, hfollow]
    exact h.refresh
  · simp only [trailAfter, Session.start, hfollow]
    rw [refresh_path] at hw
    exact ⟨n, handler, hw⟩

theorem switchTo (h : s.OnTrail t) (path : Text) :
    (s.switchTo path).1.OnTrail (s.trailAfter t (.switchTo path)) := by
  have hwatcher : (s.select path).refresh.watcher = s.watcher := (s.select path).refresh_watcher
  have hpath : (s.select path).refresh.state.path = path := (s.select path).refresh_path
  cases t with
  | none =>
      have hactive : ¬(s.select path).refresh.watcher.active.isSome := by
        rw [hwatcher, Watcher.Idle.active h]
        exact Bool.false_ne_true
      rw [Session.switchTo, if_neg hactive]
      show (s.select path).refresh.watcher.Idle
      rw [hwatcher]
      exact h
  | some t =>
      have hclear : (s.select path).refresh.watcher.unschedule.handlers = [] := by
        rw [hwatcher]
        exact h.unschedule
      obtain ⟨n, handler, h⟩ := h
      simp only [trailAfter, switchTo_of_watches h.watches]
      rcases follow_cases hclear with ⟨fault, hfollow⟩ | ⟨w, n, handler, hfollow, hw⟩
      · -- the handler is still there, while the path has gone on
        rw [hfollow]
        refine ⟨n, handler, hwatcher ▸ h.watches, ?_, h.debounce, ?_⟩
        · rw [refresh_directory]
          exact h.target
        · rw [hpath, Trail.current_miss]
      · rw [hfollow]
        rw [hpath] at hw
        exact ⟨n, handler, hw⟩

theorem handleEvent (h : s.OnTrail t) (now : Number) (e : FileEvent) :
    (s.handleEvent now e).1.OnTrail t := by
  cases t with
  | none =>
      rw [handleEvent_of_idle h]
      exact h
  | some t =>
      obtain ⟨n, handler, h⟩ := h
      rw [handleEvent_of_watches h.watches]
      cases hhandle : handler.handle s.world.directory now e with
      | error fault => exact ⟨n, handler, h⟩
      | ok r =>
          obtain ⟨b, handler'⟩ := r
          have hkept : handler'.target = handler.target ∧ handler'.debounce = handler.debounce := by
            rcases SaveHandler.handle_eq_ok hhandle with ⟨-, rfl⟩ | ⟨-, rfl, -⟩ <;> exact ⟨rfl, rfl⟩
          have hkeep : OnTrail { s with watcher := s.watcher.keep n handler' } (some t) :=
            ⟨n, handler', h.keep hkept.1 hkept.2⟩
          exact hkeep.refreshTimes b.toNat

theorem perform (h : s.OnTrail t) {a : Action} (ha : a ≠ .stop) :
    (s.perform a).OnTrail (s.trailAfter t a) := by
  cases a with
  | refresh => exact h.refresh
  | switchTo path => exact h.switchTo path
  | setFormat name => exact h.setFormat name
  | setVariables externals =>
      have hvariables : (s.withVariables externals).OnTrail t := h.congr rfl rfl rfl
      exact hvariables.refresh
  | start => exact h.start
  | stop => exact absurd rfl ha
  | event now e => exact h.handleEvent now e
  | environment files programs outcomes => exact h.congr rfl rfl rfl

end OnTrail

theorem onTrail_of_watched {s : Session} {t : Option Trail} (h : Watched s t) : s.OnTrail t := by
  induction h with
  | create h =>
      obtain ⟨externals, -, rfl⟩ := create_eq h
      exact ⟨rfl, rfl⟩
  | perform a ha _ ih => exact ih.perform ha

/-- After a start that succeeded and before a stop there is one handler, whatever was done and
whatever went wrong. It is the one for the document that was opened last of those that were found:
a save of that document in due time is followed by one refresh, and no other event by any. -/
theorem follows_of_watched {s : Session} {t : Trail} (h : Watched s (some t)) :
    ∃ n handler, s.Follows t n handler ∧
      (Path.place s.world.directory s.state.path = .ok handler.target ↔
        Path.place s.world.directory t.current = Path.place s.world.directory t.followed) ∧
      (∀ path, (s.switchTo path).2 = none ↔ s.Found path) ∧
      (∀ now e, e.Saves s.world.directory handler.target → handler.isTooSoon now = .ok false →
        s.handleEvent now e =
          ({ s with watcher := s.watcher.keep n (handler.reported now) }.refresh, none)) ∧
      ∀ now e, ¬e.Saves s.world.directory handler.target → (s.handleEvent now e).1 = s := by
  obtain ⟨n, handler, hfollows⟩ := onTrail_of_watched h
  have hwatches := hfollows.watches
  refine ⟨n, handler, hfollows, ?_, switchTo_fault_iff hwatches, ?_, ?_⟩
  · rw [hfollows.path, hfollows.target]
  · exact fun now e => handleEvent_of_saves hwatches
  · exact fun now e => handleEvent_of_not_saves hwatches now

def missedTrail : Trail where
  followed := "main.jsonnet"
  missed := ["other.jsonnet"]

def missedSession : Session :=
  (sampleSession.perform .start).perform (.switchTo "other.jsonnet")

theorem watched_started :
    Watched (sampleSession.perform .start) (some { followed := "main.jsonnet" }) := by
  have hfound : sampleSession.start.2 = none := (start_fault_iff _).2 ⟨_, rfl, _, rfl⟩
  have hstart := Watched.perform .start nofun (.create create_sample)
  rwa [trailAfter_start hfound] at hstart

theorem watched_missedSession : Watched missedSession (some missedTrail) := by
  obtain ⟨n, handler, hfollows⟩ := onTrail_of_watched watched_started
  have hmissed : ((sampleSession.perform .start).switchTo "other.jsonnet").2 ≠ none := by
    rw [Ne, switchTo_fault_iff hfollows.watches]
    rintro ⟨place, ⟨⟩, node, hnode⟩
    cases hnode
  have hswitch := Watched.perform (.switchTo "other.jsonnet") nofun watched_started
  rwa [trailAfter_missed hmissed] at hswitch

def writing (path : Text) : FileEvent where
  kind := .modified
  isDirectory := false
  source := path

def mainHandler : SaveHandler where
  target := [.ofString "main.jsonnet"]
  debounce := Watcher.debounce

theorem watches_missedSession : missedSession.watcher.Watches 0 mainHandler := ⟨rfl, _, rfl⟩

theorem directory_missedSession : missedSession.world.directory = ⟨.root, []⟩ := rfl

theorem isTooSoon_mainHandler : mainHandler.isTooSoon (.int 1) = .ok false := by
  have h : (mainHandler.isTooSoon (.int 1)).toOption = some false := by decide +kernel
  cases hsoon : mainHandler.isTooSoon (.int 1) with
  | error fault => simp [hsoon, Except.toOption] at h
  | ok b => simpa [hsoon, Except.toOption] using h

theorem saves_writing :
    (writing "main.jsonnet").Saves missedSession.world.directory mainHandler.target := by
  rw [directory_missedSession]
  exact ⟨_, rfl, rfl⟩

theorem not_saves_writing :
    ¬(writing "other.jsonnet").Saves missedSession.world.directory mainHandler.target := by
  rw [directory_missedSession]
  rintro ⟨path, ⟨⟩, hplace⟩
  have hother : Path.place ⟨.root, []⟩ "other.jsonnet" = .ok [.ofString "other.jsonnet"] := rfl
  exact absurd (Except.ok.inj (hother.symm.trans hplace)) (by decide)

theorem follows_missedSession :
    ∃ w, missedSession.handleEvent (.int 1) (writing "main.jsonnet") =
      ({ missedSession with watcher := w }.refresh, none) := by
  obtain ⟨n, handler, hfollows, -, -, hsave, -⟩ := follows_of_watched watched_missedSession
  obtain ⟨rfl, rfl⟩ : n = 0 ∧ handler = mainHandler := by
    simpa using hfollows.watches.handlers.symm.trans watches_missedSession.handlers
  exact ⟨_, hsave _ _ saves_writing isTooSoon_mainHandler⟩

theorem missed_writing :
    Watched missedSession (some missedTrail) ∧ missedSession.state.path = "other.jsonnet" ∧
      (missedSession.handleEvent (.int 1) (writing "other.jsonnet")).1 = missedSession ∧
      (missedSession.handleEvent (.int 1) (writing "main.jsonnet")).1.updates.length =
        missedSession.updates.length + 1 := by
  obtain ⟨n, handler, hfollows⟩ := onTrail_of_watched watched_missedSession
  refine ⟨watched_missedSession, hfollows.path, ?_, ?_⟩
  · exact handleEvent_of_not_saves watches_missedSession (.int 1) not_saves_writing
  · exact (tells_handleEvent_of_saves watches_missedSession saves_writing
      isTooSoon_mainHandler).length_updates

end Session

end JsonnetPreview
