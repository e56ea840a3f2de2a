import JsonnetPreview.Report.Extract
import Mathlib.Data.List.Basic

namespace JsonnetPreview.Report

/-- A text begins with a position, and a numeral of it has too many digits. -/
def HasLongNumeral (t : Text) : Prop :=
  ∃ reading ∈ Reading.of? (Reading.skipLead t), ∃ n ∈ reading.numerals,
    Numeral.digitLimit < n.length

theorem mapM_value?_eq_ok_iff (ns : List Numeral) :
    (∃ values, ns.mapM Numeral.value? = .ok values) ↔ ∀ n ∈ ns, ¬Numeral.digitLimit < n.length := by
  induction ns with
  | nil => exact ⟨fun _ => nofun, fun _ => ⟨[], rfl⟩⟩
  | cons n ns ih =>
      rw [List.forall_mem_cons, ← ih, List.mapM_cons, Numeral.value?]
      by_cases hn : Numeral.digitLimit < n.length
      · rw [if_pos hn]
        exact ⟨nofun, fun h => absurd hn h.1⟩
      · rw [if_neg hn]
        cases ns.mapM Numeral.value? with
        | error cause => exact ⟨nofun, fun h => absurd h.2 nofun⟩
        | ok values => exact ⟨fun _ => ⟨hn, _, rfl⟩, fun _ => ⟨_, rfl⟩⟩

theorem read?_eq_ok_iff (t : Text) :
    (∃ range, LocationRange.read? t = .ok range) ↔ ¬HasLongNumeral t := by
  rw [LocationRange.read?, HasLongNumeral]
  cases Reading.of? (Reading.skipLead t) with
  | none => exact ⟨fun _ => nofun, fun _ => ⟨none, rfl⟩⟩
  | some reading =>
      have hvalues := mapM_value?_eq_ok_iff reading.numerals
      simp only [Option.mem_some_iff, exists_eq_left', not_exists, not_and]
      rw [← hvalues]
      cases reading.numerals.mapM Numeral.value? with
      | error cause => exact ⟨nofun, nofun⟩
      | ok values => exact ⟨fun _ => ⟨_, rfl⟩, fun _ => ⟨_, rfl⟩⟩

def errorPosition? (message : Text) : Option Text :=
  (Frame.read? message).map fun frame => message.drop frame.full.length

def framePosition? (line : Text) : Option Text :=
  if isFrame line then
    (Frame.read? line).map fun frame => line.drop frame.indentedFile.length
  else none

theorem staticFinding_eq_ok_iff (message : Text) :
    (∃ finding, staticFinding message = .ok finding) ↔
      ∀ t ∈ errorPosition? message, ¬HasLongNumeral t := by
  rw [staticFinding, errorPosition?]
  cases Frame.read? message with
  | none => exact ⟨fun _ => nofun, fun _ => ⟨_, rfl⟩⟩
  | some frame =>
      simp only [Option.map_some, Option.mem_some_iff, forall_eq', ← read?_eq_ok_iff]
      cases LocationRange.read? (message.drop frame.full.length) with
      | error cause => exact ⟨nofun, nofun⟩
      | ok range => cases range <;> exact ⟨fun _ => ⟨_, rfl⟩, fun _ => ⟨_, rfl⟩⟩

theorem traceFinding_eq_ok_iff (message line : Text) :
    (∃ finding, traceFinding message line = .ok finding) ↔
      ∀ t ∈ framePosition? line, ¬HasLongNumeral t := by
  rw [traceFinding, framePosition?]
  split
  · cases Frame.read? line with
    | none => exact ⟨fun _ => nofun, fun _ => ⟨_, rfl⟩⟩
    | some frame =>
        simp only [Option.map_some, Option.mem_some_iff, forall_eq', ← read?_eq_ok_iff]
        cases LocationRange.read? (line.drop frame.indentedFile.length) with
        | error cause => exact ⟨nofun, nofun⟩
        | ok range => cases range <;> exact ⟨fun _ => ⟨_, rfl⟩, fun _ => ⟨_, rfl⟩⟩
  · exact ⟨fun _ => nofun, fun _ => ⟨_, rfl⟩⟩

theorem collect_eq_ok_iff (finding : Text → Except NumeralTooLong Finding) (e : Extraction)
    (ls : List Text) :
    (∃ e', collect finding e ls = .ok e') ↔ ∀ l ∈ ls, ∃ f, finding l = .ok f := by
  induction ls generalizing e with
  | nil => exact ⟨fun _ => nofun, fun _ => ⟨e, rfl⟩⟩
  | cons l ls ih =>
      rw [List.forall_mem_cons, collect]
      cases finding l with
      | error cause => exact ⟨nofun, fun h => absurd h.1 nofun⟩
      | ok f => rw [ih, and_iff_right ⟨f, rfl⟩]

/-- The texts that are read as positions. -/
def positions : Report → List Text
  | .static message => (errorPosition? message).toList
  | .runtime _ trace => trace.filterMap framePosition?
  | .unrecognized _ => []

theorem extract_eq_ok_iff (report : Text) :
    (∃ e, extract report = .ok e) ↔ ∀ t ∈ (classify report).positions, ¬HasLongNumeral t := by
  rw [extract]
  cases classify report with
  | static message =>
      simp only [collect_eq_ok_iff, List.forall_mem_singleton, staticFinding_eq_ok_iff, positions,
        Option.mem_toList, Option.mem_def]
  | runtime message trace =>
      simp only [collect_eq_ok_iff, traceFinding_eq_ok_iff, positions, List.mem_filterMap,
        forall_exists_index, and_imp]
      exact ⟨fun h t line hline => h line hline t, fun h line hline t => h t line hline⟩
  | unrecognized line => exact ⟨fun _ => nofun, fun _ => ⟨_, rfl⟩⟩

end JsonnetPreview.Report
