import JsonnetPreview.Proofs.Json.Limits
import JsonnetPreview.Proofs.Session.Reachable

namespace JsonnetPreview

open Report

def Fault.isOfPayload : Fault → Bool
  | numeralTooLong _ => true
  | reformat _ => true
  | _ => false

theorem isOfPayload_ofCommand (fault : CommandFault) :
    (Fault.ofCommand fault).isOfPayload = false := by
  cases fault <;> rfl

theorem isOfPayload_of_readSource {s : Session} {fault : Fault}
    (h : s.readSource = .error fault) : fault.isOfPayload = false := by
  unfold Session.readSource at h
  split at h
  · cases h
    rfl
  · split at h
    · cases h
    · cases h
      rfl

def Payload.TooDeepForYaml : Payload → Prop
  | rendered text => ∃ v, readRendered text = .ok v ∧ Yaml.depthLimit ≤ v.height
  | failure _ => False

namespace Shown

/-- The same is said of what went wrong; only a preview that did not fail may differ. -/
structure SameErrors (x y : Shown) : Prop where
  report : y.report = x.report
  diagnostics : y.diagnostics = x.diagnostics
  failed : y.failed = x.failed
  preview : x.failed = true → y.preview = x.preview

theorem SameErrors.of_eq {x y : Shown} (h : y = x) : x.SameErrors y := by
  subst h
  exact ⟨rfl, rfl, rfl, fun _ => rfl⟩

theorem settled_of_unread {text : Text} {e : Json.ReadError}
    (h : Payload.readRendered text = .error e) (f g : OutputFormat) :
    settled f.name (.rendered text) = settled g.name (.rendered text) := by
  simp only [settled, ofPayload, Payload.reformat, OutputFormat.ofName?_name, h]
  cases e <;> rfl

section Read

variable {text : Text} {v : Json} (h : Payload.readRendered text = .ok v)

include h

theorem settled_of_read (f : OutputFormat) : settled f.name (.rendered text) =
    match f.write v with
    | .ok preview => ⟨[], [], preview, false⟩
    | .error e => ofFault (.reformat (.nestedTooDeep e)) := by
  simp only [settled, ofPayload, Payload.reformat, OutputFormat.ofName?_name, h]
  cases f.write v <;> rfl

theorem settled_json : settled OutputFormat.json.name (.rendered text) =
    ⟨[], [], v.pretty, false⟩ := by
  have hwrite : OutputFormat.json.write v = .ok v.pretty :=
    Json.write?_eq_ok_iff.2 ⟨Json.writesJson_of_read h, rfl⟩
  rw [settled_of_read h, hwrite]

theorem settled_yaml (hv : v.height < Yaml.depthLimit) :
    settled OutputFormat.yaml.name (.rendered text) = ⟨[], [], Yaml.writeDocument v, false⟩ := by
  have hwrite : OutputFormat.yaml.write v = .ok (Yaml.writeDocument v) :=
    Yaml.write?_eq_ok_iff.2 ⟨decide_eq_true hv, rfl⟩
  rw [settled_of_read h, hwrite]

theorem settled_yaml_of_deep (hv : Yaml.depthLimit ≤ v.height) :
    settled OutputFormat.yaml.name (.rendered text) =
      ofFault (.reformat (.nestedTooDeep .writingYaml)) := by
  have hwrite : OutputFormat.yaml.write v = .error .writingYaml :=
    if_neg fun hwrites => absurd (of_decide_eq_true hwrites) (Nat.not_lt.2 hv)
  rw [settled_of_read h, hwrite]

theorem settled_of_shallow (hv : v.height < Yaml.depthLimit) (f : OutputFormat) :
    ∃ preview, settled f.name (.rendered text) = ⟨[], [], preview, false⟩ := by
  cases f with
  | json => exact ⟨_, settled_json h⟩
  | yaml => exact ⟨_, settled_yaml h hv⟩

theorem failed_settled_of_deep (hv : Yaml.depthLimit ≤ v.height) (f : OutputFormat) :
    (settled f.name (.rendered text)).failed = decide (f = .yaml) := by
  cases f with
  | json => rw [settled_json h]; rfl
  | yaml => rw [settled_yaml_of_deep h hv]; rfl

end Read

theorem sameErrors_of_not_tooDeep {p : Payload} (h : ¬p.TooDeepForYaml) (f g : OutputFormat) :
    SameErrors (settled g.name p) (settled f.name p) := by
  cases p with
  | failure report => exact .of_eq rfl
  | rendered text =>
      cases hread : Payload.readRendered text with
      | error e => exact .of_eq (settled_of_unread hread f g)
      | ok v =>
          have hv : v.height < Yaml.depthLimit := Nat.not_le.1 fun hdeep => h ⟨v, hread, hdeep⟩
          obtain ⟨x, hx⟩ := settled_of_shallow hread hv f
          obtain ⟨y, hy⟩ := settled_of_shallow hread hv g
          rw [hx, hy]
          exact ⟨rfl, rfl, rfl, nofun⟩

theorem eq_of_failed_settled_eq {p : Payload} (h : p.TooDeepForYaml) {f g : OutputFormat}
    (hfailed : (settled f.name p).failed = (settled g.name p).failed) : f = g := by
  cases p with
  | failure report => exact h.elim
  | rendered text =>
      obtain ⟨v, hread, hdeep⟩ := h
      rw [failed_settled_of_deep hread hdeep, failed_settled_of_deep hread hdeep] at hfailed
      revert hfailed
      cases f <;> cases g <;> decide

theorem sameErrors_settled_iff (f g : OutputFormat) (p : Payload) :
    SameErrors (settled g.name p) (settled f.name p) ↔ f = g ∨ ¬p.TooDeepForYaml := by
  by_cases hdeep : p.TooDeepForYaml
  · constructor
    · intro h
      exact .inl (eq_of_failed_settled_eq hdeep h.failed)
    · rintro (rfl | h)
      · exact .of_eq rfl
      · exact absurd hdeep h
  · exact iff_of_true (sameErrors_of_not_tooDeep hdeep f g) (.inr hdeep)

end Shown

namespace Session

def fault? (s : Session) : Option Fault := s.updates.getLast?.bind (·.fault)

/-- Nothing went wrong in the last cycle before there was a payload. -/
def CameToPayload (s : Session) : Prop := ∀ fault ∈ s.fault?, fault.isOfPayload = true

@[simp]
theorem fault?_endCycle (s : Session) (r : Except Fault Shown) :
    (s.endCycle r).fault? = Shown.fault? r := by
  rw [fault?, endCycle_updates, List.getLast?_concat, Option.bind_some]

def Settled (s : Session) : Prop :=
  ∀ source p, s.cache.entry = some (source, p) → source = s.state.path ∧
    (s.CameToPayload → s.state.shown = Shown.settled s.state.format.display p)

theorem settled_endCycle_error {s : Session} (h : s.Settled) {fault : Fault}
    (hfault : fault.isOfPayload = false) : (s.endCycle (.error fault)).Settled := by
  intro source p hp
  rw [endCycle_cache] at hp
  refine ⟨?_, fun hlast => ?_⟩
  · rw [endCycle_path]
    exact (h source p hp).1
  · have := hlast fault (by rw [fault?_endCycle]; rfl)
    simp [hfault] at this

theorem settled_applyPayload {s : Session} {p : Payload}
    (h : s.cache.entry = some (s.state.path, p)) : (s.applyPayload p).Settled := by
  intro source q hq
  rw [applyPayload_cache, h] at hq
  cases hq
  refine ⟨(applyPayload_path s p).symm, fun _ => ?_⟩
  rw [applyPayload_shown, applyPayload_format]

theorem settled_refreshes {s t : Session} (h : s.Settled) (ht : Refreshes s t) : t.Settled := by
  cases ht with
  | unread fault hread => exact settled_endCycle_error h (isOfPayload_of_readSource hread)
  | unrendered text fault world =>
      exact settled_endCycle_error (s := s.asked text world) h (isOfPayload_ofCommand fault)
  | rendered text r world =>
      exact settled_applyPayload (s := (s.asked text world).keep (.ofOutcome r.output r.report)) rfl

theorem settled_move {s t : Session} (ht : Move s t) (h : s.Settled) : t.Settled := by
  cases ht with
  | refresh ht => exact settled_refreshes h ht
  | select path =>
      intro source p hp
      cases hp
  | format name _ hcache =>
      -- a payload of the active document would have been shown without this move
      intro source p hp
      obtain rfl := (h source p hp).1
      cases hcache.symm.trans (Cache.get?_eq_some_iff.2 hp)
  | replay name p _ hcache =>
      exact settled_applyPayload (s := s.withFormat name) (Cache.get?_eq_some_iff.1 hcache)
  | override | watcher | environment => exact h

theorem settled_of_reachable {s : Session} (h : Reachable s) : s.Settled := by
  refine h.invariant ?_ settled_move
  intro path config w s hs source p hp
  rw [(create_fresh hs).1] at hp
  cases hp

/-- Nothing differs but the format, the time, and a preview that did not fail. -/
structure KeepsErrors (s t : Session) : Prop where
  state : t.state = { s.state with
    format := t.state.format
    preview := t.state.preview
    lastUpdate := t.state.lastUpdate }
  preview : s.state.failed = true → t.state.preview = s.state.preview

theorem keepsErrors_iff {s t : Session} {format : Json} {x : Shown} {n : Nat}
    (ht : t.state = { s.state with format }.showing x n) :
    s.KeepsErrors t ↔ s.state.shown.SameErrors x := by
  constructor
  · rintro ⟨hstate, hpreview⟩
    rw [ht] at hstate hpreview
    exact ⟨congrArg (·.report) hstate, congrArg (·.diagnostics) hstate,
      congrArg (·.failed) hstate, hpreview⟩
  · intro h
    obtain ⟨hreport, hdiagnostics, hfailed, hpreview⟩ := h
    refine ⟨?_, ?_⟩
    · rw [ht]
      simp only [DocumentState.showing, hreport, hdiagnostics, hfailed, DocumentState.shown]
    · rw [ht]
      exact hpreview

/-- Another format for a payload that is kept: no command is run, and the payload is shown. What
went wrong stays as it was if the last cycle came to the payload, unless YAML is too deep for it. -/
theorem setFormat_of_cached {s : Session} (hs : Reachable s) {f g : OutputFormat}
    (hg : s.state.format = .str g.name) {p : Payload}
    (hp : s.cache.get? (some s.state.path) = some p) :
    (s.setFormat f.name).1.world.commands = s.world.commands ∧
      (s.setFormat f.name).1.state.shown = Shown.settled f.name p ∧
      (s.CameToPayload →
        (s.KeepsErrors (s.setFormat f.name).1 ↔ f = g ∨ ¬p.TooDeepForYaml)) := by
  have hname : (OutputFormat.ofName? f.name).isSome := by rw [OutputFormat.ofName?_name]; rfl
  rw [setFormat_of_get? hname hp]
  refine ⟨applyPayload_commands _ p, applyPayload_shown _ p, fun hlast => ?_⟩
  have hshown := ((settled_of_reachable hs) _ p (Cache.get?_eq_some_iff.1 hp)).2 hlast
  rw [hg] at hshown
  rw [keepsErrors_iff (applyPayload_state (s.withFormat f.name) p), hshown]
  exact Shown.sameErrors_settled_iff f g p

theorem setFormat_sampleSession :
    sampleSession.refresh.state.format = .str OutputFormat.json.name ∧
      sampleSession.refresh.cache.get? (some sampleSession.refresh.state.path) =
        some (.rendered "[]") ∧
      sampleSession.refresh.KeepsErrors
        (sampleSession.refresh.setFormat OutputFormat.yaml.name).1 := by
  have hreachable : Reachable sampleSession.refresh := .perform .refresh reachable_sampleSession
  have hlast : sampleSession.refresh.CameToPayload := nofun
  have hshallow : ¬(Payload.rendered "[]").TooDeepForYaml := by
    rintro ⟨v, hv, hdeep⟩
    cases hv
    exact absurd hdeep (by decide)
  have hkeeps := (setFormat_of_cached hreachable (f := .yaml) (g := .json) rfl rfl).2.2 hlast
  exact ⟨rfl, rfl, hkeeps.2 (.inr hshallow)⟩

theorem setFormat_removedSession :
    Reachable removedSession ∧ removedSession.state.format = .str OutputFormat.json.name ∧
      removedSession.cache.get? (some removedSession.state.path) =
        some (.rendered "[]") ∧
      removedSession.state.report =
        "Internal Engine Error: [Errno 2] No such file or directory: 'main.jsonnet'" ∧
      removedSession.state.failed = true ∧
      (removedSession.setFormat OutputFormat.yaml.name).1.state.report = [] ∧
      (removedSession.setFormat OutputFormat.yaml.name).1.state.failed = false ∧
      (removedSession.setFormat OutputFormat.yaml.name).1.world.commands =
        removedSession.world.commands :=
  ⟨reachable_removedSession, rfl, rfl, rfl, rfl, rfl, rfl, rfl⟩

end Session

end JsonnetPreview
