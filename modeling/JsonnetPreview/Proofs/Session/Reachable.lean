import JsonnetPreview.Proofs.Session.Cycle
import Mathlib.Logic.Relation

namespace JsonnetPreview

namespace Session

/-- What can be done with a session. Files, programs and what comes of running them may change
between any two actions. -/
inductive Action where
  | refresh
  | switchTo (path : Text)
  | setFormat (name : Text)
  | setVariables (externals : VariableTable)
  | start
  | stop
  | event (now : Number) (e : FileEvent)
  | environment (files : FileTree) (programs : List Text) (outcomes : Nat → RunOutcome)

def inEnvironment (s : Session) (files : FileTree) (programs : List Text)
    (outcomes : Nat → RunOutcome) : Session :=
  { s with world := { s.world with files, programs, outcomes } }

/-- What an action leaves behind, also where something goes wrong in it. -/
def perform (s : Session) : Action → Session
  | .refresh => s.refresh
  | .switchTo path => (s.switchTo path).1
  | .setFormat name => (s.setFormat name).1
  | .setVariables externals => s.setVariables externals
  | .start => s.start.1
  | .stop => s.stop
  | .event now e => (s.handleEvent now e).1
  | .environment files programs outcomes => s.inEnvironment files programs outcomes

inductive Reachable : Session → Prop
  | create {path config w s} (h : create path config w = .ok s) : Reachable s
  | perform {s} (a : Action) (h : Reachable s) : Reachable (s.perform a)

def withFormat (s : Session) (name : Text) : Session :=
  { s with state := { s.state with format := .str name } }

def withVariables (s : Session) (externals : VariableTable) : Session :=
  { s with
    config := s.config.withVariables externals
    state := { s.state with externals } }

inductive Move (s : Session) : Session → Prop
  | refresh {t} (h : Refreshes s t) : Move s t
  | select (path : Text) : Move s (s.select path)
  | override (externals : VariableTable) : Move s (s.withVariables externals)
  | format (name : Text) (hname : (OutputFormat.ofName? name).isSome)
      (hcache : s.cache.get? (some s.state.path) = none) : Move s (s.withFormat name)
  | replay (name : Text) (p : Payload) (hname : (OutputFormat.ofName? name).isSome)
      (hcache : s.cache.get? (some s.state.path) = some p) :
      Move s ((s.withFormat name).applyPayload p)
  | watcher (watcher : Watcher) : Move s { s with watcher }
  | environment (files programs outcomes) : Move s (s.inEnvironment files programs outcomes)

abbrev Moves := Relation.ReflTransGen Move

theorem moves_refresh (s : Session) : Moves s s.refresh := .single (.refresh s.refresh_cases)

theorem moves_refreshTimes (s : Session) (n : Nat) : Moves s (s.refreshTimes n) := by
  induction n generalizing s with
  | zero => exact .refl
  | succ n ih => exact (moves_refresh s).trans (ih s.refresh)

theorem moves_follow (s : Session) : Moves s s.follow.1 := by
  unfold follow watch
  cases s.watcher.watch s.world.files s.world.directory s.state.path with
  | error fault => exact .refl
  | ok watcher => exact .single (.watcher watcher)

theorem moves_switchTo (s : Session) (path : Text) : Moves s (s.switchTo path).1 := by
  have h : Moves s (s.select path).refresh := .head (.select path) (moves_refresh _)
  by_cases hactive : (s.select path).refresh.watcher.active.isSome
  · rw [switchTo, if_pos hactive]
    exact h.trans (moves_follow _)
  · rw [switchTo, if_neg hactive]
    exact h

theorem setFormat_of_none {s : Session} {name : Text} (hname : OutputFormat.ofName? name = none) :
    (s.setFormat name).1 = s := by
  rw [setFormat, hname]

theorem setFormat_of_get? {s : Session} {name : Text} {p : Payload}
    (hname : (OutputFormat.ofName? name).isSome)
    (hcache : s.cache.get? (some s.state.path) = some p) :
    (s.setFormat name).1 = (s.withFormat name).applyPayload p := by
  obtain ⟨f, hf⟩ := Option.isSome_iff_exists.1 hname
  simp only [setFormat, hf, hcache]
  rfl

theorem setFormat_of_get?_none {s : Session} {name : Text}
    (hname : (OutputFormat.ofName? name).isSome)
    (hcache : s.cache.get? (some s.state.path) = none) :
    (s.setFormat name).1 = (s.withFormat name).refresh := by
  obtain ⟨f, hf⟩ := Option.isSome_iff_exists.1 hname
  simp only [setFormat, hf, hcache]
  rfl

theorem moves_setFormat (s : Session) (name : Text) : Moves s (s.setFormat name).1 := by
  by_cases hname : (OutputFormat.ofName? name).isSome
  · cases hcache : s.cache.get? (some s.state.path) with
    | some p =>
        rw [setFormat_of_get? hname hcache]
        exact .single (.replay name p hname hcache)
    | none =>
        rw [setFormat_of_get?_none hname hcache]
        exact .head (.format name hname hcache) (moves_refresh _)
  · rw [setFormat_of_none (Option.not_isSome_iff_eq_none.1 hname)]

theorem moves_handleEvent (s : Session) (now : Number) (e : FileEvent) :
    Moves s (s.handleEvent now e).1 := by
  unfold handleEvent
  cases s.watcher.dispatch s.world.directory now e with
  | error fault => exact .refl
  | ok handled => exact .head (.watcher handled.2) (moves_refreshTimes _ handled.1)

theorem moves_perform (s : Session) (a : Action) : Moves s (s.perform a) := by
  cases a with
  | refresh => exact moves_refresh s
  | switchTo path => exact moves_switchTo s path
  | setFormat name => exact moves_setFormat s name
  | setVariables externals => exact .head (.override externals) (moves_refresh _)
  | start => exact (moves_refresh s).trans (moves_follow _)
  | stop => exact .single (.watcher _)
  | event now e => exact moves_handleEvent s now e
  | environment files programs outcomes => exact .single (.environment files programs outcomes)

theorem Moves.invariant {I : Session → Prop} (hmove : ∀ {s t}, Move s t → I s → I t)
    {s t : Session} (h : Moves s t) (hs : I s) : I t := by
  induction h with
  | refl => exact hs
  | tail _ hst ih => exact hmove hst ih

theorem Reachable.invariant {I : Session → Prop}
    (hcreate : ∀ {path config w s}, Session.create path config w = .ok s → I s)
    (hmove : ∀ {s t}, Move s t → I s → I t) {s : Session} (h : Reachable s) : I s := by
  induction h with
  | create h => exact hcreate h
  | perform a _ ih => exact Moves.invariant hmove (moves_perform _ a) ih

theorem create_eq {path : Text} {config : Config} {w : World} {s : Session}
    (h : create path config w = .ok s) :
    ∃ externals, config.externalVariables = .ok externals ∧
      s = { config
            renderer := (Renderer.ofConfig config w).1
            world := (Renderer.ofConfig config w).2
            state := { path, externals
                       format := (config.get? Config.outputFormat).getD (.str "json") } } := by
  cases hexternals : config.externalVariables with
  | error fault => simp [create, hexternals] at h
  | ok externals =>
      simp only [create, hexternals, Except.ok.injEq] at h
      exact ⟨externals, rfl, h.symm⟩

theorem create_fresh {path : Text} {config : Config} {w : World} {s : Session}
    (h : create path config w = .ok s) : s.cache = Cache.empty ∧ s.updates = [] := by
  obtain ⟨externals, -, rfl⟩ := create_eq h
  exact ⟨rfl, rfl⟩

def sampleWorld : World where
  files := { nodes := [([.ofString "main.jsonnet"], .file [])] }
  directory := ⟨.root, []⟩
  home := ⟨.root, []⟩
  programs := ["jsonnet"]
  outcomes := fun _ => .exited 0 "[]" ""

def sampleSession : Session where
  config := .defaults
  renderer := (Renderer.ofConfig .defaults sampleWorld).1
  state := { path := "main.jsonnet" }
  world := sampleWorld

theorem create_sample : create "main.jsonnet" .defaults sampleWorld = .ok sampleSession := rfl

theorem reachable_sampleSession : Reachable sampleSession := .create create_sample

def removedSession : Session :=
  ((sampleSession.perform .refresh).perform (.environment { nodes := [] } [] sampleWorld.outcomes)).perform
    .refresh

theorem reachable_removedSession : Reachable removedSession :=
  .perform _ (.perform _ (.perform _ reachable_sampleSession))

end Session

end JsonnetPreview
