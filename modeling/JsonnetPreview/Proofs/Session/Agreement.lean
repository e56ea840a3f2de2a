import JsonnetPreview.Proofs.Session.History

namespace JsonnetPreview

namespace DocumentState

theorem withSource_source {d : DocumentState} (h : d.lines = d.source.lines) :
    d.withSource d.source = d := by
  rw [withSource, ← h]

/-- Two states differ in nothing but the time at which they were shown. -/
def SameButTime (d e : DocumentState) : Prop := e = { d with lastUpdate := e.lastUpdate }

theorem sameButTime_showing (d : DocumentState) (x : Shown) (m n : Nat) :
    (d.showing x m).SameButTime (d.showing x n) := rfl

end DocumentState

namespace Session

theorem lines_of_reachable {s : Session} (hs : Reachable s) :
    s.state.lines = s.state.source.lines := by
  obtain ⟨l, hl⟩ := exists_history hs
  exact (sources_of_history hl).1.lines

theorem setFormat_fault {s : Session} {name : Text} (hname : (OutputFormat.ofName? name).isSome) :
    (s.setFormat name).2 = none := by
  obtain ⟨f, hf⟩ := Option.isSome_iff_exists.1 hname
  simp only [setFormat, hf]
  cases s.cache.get? (some s.state.path) <;> rfl

theorem cache_eq_store {s : Session} {p : Payload}
    (hp : s.cache.get? (some s.state.path) = some p) : s.cache = Cache.store s.state.path p :=
  congrArg Cache.mk (Cache.get?_eq_some_iff.1 hp)

theorem sameButTime_applyPayload {s t : Session} (h : s.state = t.state) (p : Payload) :
    (s.applyPayload p).state.SameButTime (t.applyPayload p).state := by
  rw [applyPayload_state s p, applyPayload_state t p, h]
  exact DocumentState.sameButTime_showing _ _ _ _

/-- Another format for a payload that is kept runs no command, and shows what a refresh in that
format would show if the source still reads as it is shown and rendering it comes to that payload
again. -/
theorem setFormat_agrees {s : Session} (hs : Reachable s) (f : OutputFormat) {p : Payload}
    (hp : s.cache.get? (some s.state.path) = some p) (hread : s.readSource = .ok s.state.source)
    {r : Rendering} {world : World}
    (hrender : s.renderer.render s.config s.world s.state.path = (.ok r, world))
    (hr : Payload.ofOutcome r.output r.report = p) :
    (s.setFormat f.name).2 = none ∧
      (s.setFormat f.name).1.world.commands = s.world.commands ∧
      (s.setFormat f.name).1.cache = (s.withFormat f.name).refresh.cache ∧
      (s.setFormat f.name).1.state.SameButTime (s.withFormat f.name).refresh.state := by
  have hname : (OutputFormat.ofName? f.name).isSome := by rw [OutputFormat.ofName?_name]; rfl
  have hrefresh : (s.withFormat f.name).refresh =
      (((s.withFormat f.name).asked s.state.source world).keep p).applyPayload p := by
    subst hr
    exact (Refreshes.rendered (s := s.withFormat f.name) _ r world hread hrender).eq_refresh.symm
  have hlines : s.state.lines = s.state.source.lines := lines_of_reachable hs
  have hasked :
      (s.withFormat f.name).state.withSource s.state.source = (s.withFormat f.name).state :=
    DocumentState.withSource_source hlines
  refine ⟨setFormat_fault hname, ?_⟩
  rw [setFormat_of_get? hname hp, hrefresh]
  refine ⟨applyPayload_commands _ p, ?_, sameButTime_applyPayload hasked.symm p⟩
  rw [applyPayload_cache, applyPayload_cache]
  exact cache_eq_store hp

theorem setFormat_agrees_bracesSession :
    bracesSession.refresh.cache.get? (some bracesSession.refresh.state.path) =
        some (.rendered "[]") ∧
      (bracesSession.refresh.setFormat OutputFormat.yaml.name).1.state.SameButTime
        (bracesSession.refresh.withFormat OutputFormat.yaml.name).refresh.state := by
  have hreachable : Reachable bracesSession.refresh := .perform .refresh (.create create_braces)
  have hagrees := setFormat_agrees hreachable .yaml (p := .rendered "[]") rfl rfl
    (r := ⟨"[]", ""⟩) rfl rfl
  exact ⟨rfl, hagrees.2.2.2⟩

end Session

end JsonnetPreview
