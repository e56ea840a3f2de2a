import JsonnetPreview.Proofs.Session.Reachable

namespace JsonnetPreview

open Report

namespace Payload

def report : Payload → Text
  | rendered _ => []
  | failure report => report

/-- The diagnostics of a payload, unless a numeral cuts their extraction short. -/
def diagnostics? : Payload → Except Interrupted DiagnosticSet
  | rendered _ => .ok []
  | failure report => (extract report).map (·.found)

/-- What is shown is a payload in a format, in all its parts. -/
structure Fills (p : Payload) (format : Text) (x : Shown) : Prop where
  report : x.report = p.report
  diagnostics : p.diagnostics? = .ok x.diagnostics
  preview : p.reformat format = .ok x.preview
  failed : x.failed = p.isFailure

theorem fills_of_ofPayload {p : Payload} {format : Text} {x : Shown}
    (h : (Shown.ofPayload format p).1 = .ok x) : p.Fills format x := by
  cases p with
  | rendered text =>
      cases hp : (rendered text).reformat format with
      | error fault => simp [Shown.ofPayload, hp] at h
      | ok preview =>
          simp only [Shown.ofPayload, hp, Except.ok.injEq] at h
          subst h
          exact ⟨rfl, rfl, hp, rfl⟩
  | failure report =>
      cases he : extract report with
      | error cause => simp [Shown.ofPayload, Shown.ofReport, he] at h
      | ok e =>
          simp only [Shown.ofPayload, Shown.ofReport, he, Except.ok.injEq] at h
          subst h
          exact ⟨rfl, by rw [diagnostics?, he]; rfl, rfl, rfl⟩

end Payload

namespace Update

def ShowsFault (u : Update) : Prop :=
  ∃ fault, u.fault = some fault ∧ u.state.shown = .ofFault fault

def ShowsPayload (u : Update) : Prop :=
  ∃ p, u.fault = none ∧ u.cache.entry = some (u.state.path, p) ∧
    p.Fills u.state.format.display u.state.shown

structure Coherent (u : Update) : Prop where
  shape : u.ShowsFault ∨ u.ShowsPayload
  hasErrors : u.state.hasErrors = u.state.failed

theorem coherent_of_showsFault {u : Update} (h : u.ShowsFault) : u.Coherent := by
  refine ⟨.inl h, ?_⟩
  obtain ⟨fault, -, hshown⟩ := h
  have hfailed : u.state.failed = true := congrArg Shown.failed hshown
  rw [DocumentState.hasErrors, hfailed, Bool.true_or]

theorem coherent_of_showsPayload {u : Update} (h : u.ShowsPayload) : u.Coherent := by
  refine ⟨.inr h, ?_⟩
  obtain ⟨p, -, -, hp⟩ := h
  have hfailed : u.state.failed = p.isFailure := hp.failed
  cases p with
  | failure report => rw [DocumentState.hasErrors, hfailed, Payload.isFailure, Bool.true_or]
  | rendered text =>
      have hdiagnostics : u.state.diagnostics = [] := (Except.ok.inj hp.diagnostics).symm
      rw [DocumentState.hasErrors, hdiagnostics, List.any_nil, Bool.or_false]

end Update

namespace Session

def Told (s : Session) : Prop := ∀ u ∈ s.updates, u.Coherent

theorem told_append {s t : Session} (h : s.Told) {u : Update}
    (ht : t.updates = s.updates ++ [u]) (hu : u.Coherent) : t.Told := by
  intro v hv
  rw [ht] at hv
  rcases List.mem_append.1 hv with hv | hv
  · exact h v hv
  · exact List.mem_singleton.1 hv ▸ hu

theorem told_endCycle_error {s : Session} (h : s.Told) (fault : Fault) :
    (s.endCycle (.error fault)).Told :=
  told_append h (endCycle_updates s _) (Update.coherent_of_showsFault ⟨fault, rfl, rfl⟩)

theorem told_applyPayload {s : Session} (h : s.Told) {p : Payload}
    (hp : s.cache.entry = some (s.state.path, p)) : (s.applyPayload p).Told := by
  refine told_append h (applyPayload_updates s p) ?_
  have hstate := applyPayload_shown s p
  cases hshown : (Shown.ofPayload s.state.format.display p).1 with
  | error fault =>
      rw [Shown.settled, hshown] at hstate
      exact Update.coherent_of_showsFault ⟨fault, rfl, hstate⟩
  | ok x =>
      rw [Shown.settled, hshown] at hstate
      refine Update.coherent_of_showsPayload ⟨p, rfl, ?_, ?_⟩
      · rw [applyPayload_path]
        exact hp
      · rw [applyPayload_format, hstate]
        exact Payload.fills_of_ofPayload hshown

theorem told_refreshes {s t : Session} (h : s.Told) (ht : Refreshes s t) : t.Told := by
  cases ht with
  | unread fault => exact told_endCycle_error h fault
  | unrendered text fault world => exact told_endCycle_error (s := s.asked text world) h _
  | rendered text r world =>
      exact told_applyPayload (s := (s.asked text world).keep (.ofOutcome r.output r.report)) h rfl

theorem told_move {s t : Session} (ht : Move s t) (h : s.Told) : t.Told := by
  cases ht with
  | refresh ht => exact told_refreshes h ht
  | replay name p _ hcache =>
      exact told_applyPayload (s := s.withFormat name) h (Cache.get?_eq_some_iff.1 hcache)
  | select | override | format | watcher | environment => exact h

theorem coherent_of_mem_updates {s : Session} (h : Reachable s) {u : Update}
    (hu : u ∈ s.updates) : u.Coherent := by
  have htold : s.Told := by
    refine h.invariant ?_ told_move
    intro path config w s hs
    rw [Told, (create_fresh hs).2]
    exact List.forall_mem_nil _
  exact htold u hu

theorem coherent_removedSession :
    ∃ u v, removedSession.updates = [u, v] ∧ u.fault = none ∧ v.fault.isSome = true ∧
      u.Coherent ∧ v.Coherent := by
  refine ⟨_, _, rfl, rfl, rfl, ?_, ?_⟩
  · exact coherent_of_mem_updates reachable_removedSession (List.mem_cons_self ..)
  · exact coherent_of_mem_updates reachable_removedSession
      (List.mem_cons_of_mem _ (List.mem_singleton_self _))

end Session

end JsonnetPreview
