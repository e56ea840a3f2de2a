import JsonnetPreview.Session.Basic

namespace JsonnetPreview

open Report

def DocumentState.shown (d : DocumentState) : Shown :=
  ⟨d.report, d.diagnostics, d.preview, d.failed⟩

def DocumentState.showing (d : DocumentState) (x : Shown) (lastUpdate : Nat) : DocumentState :=
  { d with
    report := x.report
    diagnostics := x.diagnostics
    preview := x.preview
    failed := x.failed
    lastUpdate }

namespace Shown

def ofFault (fault : Fault) : Shown where
  report := Session.internalErrorMark ++ fault.message
  diagnostics := []
  preview := Session.internalErrorMark ++ fault.message
  failed := true

def ofResult : Except Fault Shown → Shown
  | .ok x => x
  | .error fault => ofFault fault

def fault? : Except Fault Shown → Option Fault
  | .ok _ => none
  | .error fault => some fault

def settled (format : Text) (p : Payload) : Shown := ofResult (ofPayload format p).1

end Shown

namespace Session

section EndCycle

variable (s : Session) (r : Except Fault Shown)

@[simp]
theorem endCycle_cache : (s.endCycle r).cache = s.cache := by cases r <;> rfl

@[simp]
theorem endCycle_path : (s.endCycle r).state.path = s.state.path := by cases r <;> rfl

@[simp]
theorem endCycle_format : (s.endCycle r).state.format = s.state.format := by cases r <;> rfl

@[simp]
theorem endCycle_commands : (s.endCycle r).world.commands = s.world.commands := by cases r <;> rfl

@[simp]
theorem endCycle_shown : (s.endCycle r).state.shown = Shown.ofResult r := by cases r <;> rfl

theorem endCycle_state :
    (s.endCycle r).state =
      s.state.showing (Shown.ofResult r) (s.endCycle r).state.lastUpdate := by
  cases r <;> rfl

theorem endCycle_updates :
    (s.endCycle r).updates = s.updates ++ [⟨Shown.fault? r, (s.endCycle r).state, s.cache⟩] := by
  cases r <;> rfl

end EndCycle

section ApplyPayload

variable (s : Session) (p : Payload)

@[simp]
theorem applyPayload_cache : (s.applyPayload p).cache = s.cache := endCycle_cache _ _

@[simp]
theorem applyPayload_path : (s.applyPayload p).state.path = s.state.path := endCycle_path _ _

@[simp]
theorem applyPayload_format : (s.applyPayload p).state.format = s.state.format :=
  endCycle_format _ _

@[simp]
theorem applyPayload_commands : (s.applyPayload p).world.commands = s.world.commands :=
  endCycle_commands _ _

@[simp]
theorem applyPayload_shown :
    (s.applyPayload p).state.shown = Shown.settled s.state.format.display p :=
  endCycle_shown _ _

theorem applyPayload_state :
    (s.applyPayload p).state =
      s.state.showing (Shown.settled s.state.format.display p)
        (s.applyPayload p).state.lastUpdate :=
  endCycle_state _ _

theorem applyPayload_updates :
    (s.applyPayload p).updates =
      s.updates ++ [⟨Shown.fault? (Shown.ofPayload s.state.format.display p).1,
        (s.applyPayload p).state, s.cache⟩] :=
  endCycle_updates _ _

end ApplyPayload

def asked (s : Session) (text : Text) (world : World) : Session :=
  { s with state := s.state.withSource text, world }

def keep (s : Session) (p : Payload) : Session :=
  { s with cache := Cache.store s.state.path p }

inductive Refreshes (s : Session) : Session → Prop
  | unread (fault) (hread : s.readSource = .error fault) : Refreshes s (s.endCycle (.error fault))
  | unrendered (text fault world) (hread : s.readSource = .ok text)
      (hrender : s.renderer.render s.config s.world s.state.path = (.error fault, world)) :
      Refreshes s ((s.asked text world).endCycle (.error (.ofCommand fault)))
  | rendered (text r world) (hread : s.readSource = .ok text)
      (hrender : s.renderer.render s.config s.world s.state.path = (.ok r, world)) :
      Refreshes s (((s.asked text world).keep (.ofOutcome r.output r.report)).applyPayload
        (.ofOutcome r.output r.report))

theorem refresh_cases (s : Session) : Refreshes s s.refresh := by
  cases hread : s.readSource with
  | error fault =>
      simp only [refresh, hread]
      exact .unread fault hread
  | ok text =>
      rcases hrender : s.renderer.render s.config s.world s.state.path with ⟨fault | r, world⟩
      · simp only [refresh, hread, renderDocument, DocumentState.withSource, hrender]
        exact .unrendered text fault world hread hrender
      · simp only [refresh, hread, renderDocument, DocumentState.withSource, hrender]
        exact .rendered text r world hread hrender

/-- A cycle has ended between the two sessions, and it told what the second one is. -/
def Tells (s t : Session) : Prop := ∃ fault, t.updates = s.updates ++ [⟨fault, t.state, t.cache⟩]

theorem tells_endCycle (s : Session) (r : Except Fault Shown) : s.Tells (s.endCycle r) :=
  ⟨_, by rw [endCycle_updates, endCycle_cache]⟩

theorem tells_applyPayload (s : Session) (p : Payload) : s.Tells (s.applyPayload p) :=
  ⟨_, by rw [applyPayload_updates, applyPayload_cache]⟩

theorem tells_refreshes {s t : Session} (h : Refreshes s t) : s.Tells t := by
  cases h with
  | unread fault => exact tells_endCycle s _
  | unrendered text fault world => exact tells_endCycle (s.asked text world) _
  | rendered text r world =>
      exact tells_applyPayload ((s.asked text world).keep (.ofOutcome r.output r.report)) _

theorem tells_refresh (s : Session) : s.Tells s.refresh := tells_refreshes s.refresh_cases

theorem Tells.length_updates {s t : Session} (h : s.Tells t) :
    t.updates.length = s.updates.length + 1 := by
  obtain ⟨fault, hupdates⟩ := h
  rw [hupdates, List.length_append]
  rfl

end Session

end JsonnetPreview
