import JsonnetPreview.Source.Listing
import JsonnetPreview.Proofs.Groups
import JsonnetPreview.Proofs.Report.Accounting

namespace JsonnetPreview

namespace Report.Range

def Contains (r : Range) (p : Position) : Prop := ¬ p < r.start ∧ p < r.stop

def Touches (r : Range) (line : Int) : Prop := r.start.line ≤ line ∧ line ≤ r.stop.line

instance (r : Range) (line : Int) : Decidable (r.Touches line) :=
  inferInstanceAs (Decidable (_ ∧ _))

/-- The first column that a range may have in a line that it touches. -/
def firstIn (r : Range) (line : Int) : Int :=
  if line = r.start.line then r.start.character else 0

/-- The column behind the last one that a range may have in a line that it touches. -/
def stopIn (r : Range) (line length : Int) : Int :=
  if line = r.stop.line then r.stop.character else length

theorem contains_iff {r : Range} {line : Int} (h : r.Touches line) {length column : Nat}
    (hcolumn : column < length) :
    r.Contains ⟨line, column⟩ ↔ r.firstIn line ≤ column ∧ column < r.stopIn line length := by
  obtain ⟨hstart, hstop⟩ := h
  have hafter : ¬ (⟨line, column⟩ : Position) < r.start ↔ r.firstIn line ≤ column := by
    show ¬ (line < r.start.line ∨ line = r.start.line ∧ column < r.start.character) ↔ _
    rw [firstIn]
    split <;> omega
  have hbefore : (⟨line, column⟩ : Position) < r.stop ↔ column < r.stopIn line length := by
    show (line < r.stop.line ∨ line = r.stop.line ∧ column < r.stop.character) ↔ _
    rw [stopIn]
    split <;> omega
  rw [Contains, hafter, hbefore]

theorem IsProper.firstIn_nonneg {r : Range} (h : r.IsProper) (line : Int) :
    0 ≤ r.firstIn line := by
  have hcharacter := h.character
  rw [firstIn]
  split <;> omega

theorem IsProper.firstIn_lt_stopIn {r : Range} (h : r.IsProper) {line length : Int}
    (hfirst : r.firstIn line < length) : r.firstIn line < r.stopIn line length := by
  obtain ⟨-, -, hstop, hlt⟩ := h
  have hlt : r.start.line < r.stop.line ∨
      r.start.line = r.stop.line ∧ r.start.character < r.stop.character := hlt
  rw [firstIn] at hfirst ⊢
  rw [stopIn]
  split at hfirst <;> split <;> omega

end Report.Range

namespace Source

open Report

structure Columns.IsProper (c : Columns) : Prop where
  first : 0 ≤ c.first
  lt : c.first < c.last

/-- What is marked for a range in a line: the columns of the line that are in the range, and its
last column if none is. -/
structure Columns.Marks (c : Columns) (r : Range) (line length : Nat) : Prop
    extends c.IsProper where
  last : c.last ≤ length
  columns : (∃ k : Nat, k < length ∧ r.Contains ⟨line, k⟩) →
    ∀ k : Nat, c.first ≤ k ∧ k < c.last ↔ k < length ∧ r.Contains ⟨line, k⟩
  lastColumn : (¬ ∃ k : Nat, k < length ∧ r.Contains ⟨line, k⟩) → c = ⟨length - 1, length⟩

theorem columns?_eq (r : Range) (line length : Int) : columns? r line length =
    let first := min (r.firstIn line) length
    let last := min (r.stopIn line length) length
    let cell : Columns := ⟨max 0 (min first (length - 1)), min (first + 1) length⟩
    if first < last then some ⟨first, last⟩
    else if cell.first < cell.last then some cell
    else none := rfl

variable {r : Range} {line length : Nat}

theorem columns?_of_lt (hstop : r.firstIn line < r.stopIn line length)
    (hlength : r.firstIn line < length) :
    columns? r line length = some ⟨r.firstIn line, min (r.stopIn line length) length⟩ := by
  have hfirst : min (r.firstIn line) length = r.firstIn line := by omega
  have hlt : r.firstIn line < min (r.stopIn line length) length := by omega
  simp only [columns?_eq, hfirst, if_pos hlt]

theorem columns?_of_le (hlength : (length : Int) ≤ r.firstIn line) :
    columns? r line length = if 0 < length then some ⟨length - 1, length⟩ else none := by
  have hfirst : min (r.firstIn line) length = length := by omega
  have hlast : ¬ (length : Int) < min (r.stopIn line length) length := by omega
  have hstop : min (length + 1 : Int) length = length := by omega
  simp only [columns?_eq, hfirst, if_neg hlast, hstop]
  by_cases hpos : 0 < length
  · have hcell : max 0 (min (length : Int) (length - 1)) = length - 1 := by omega
    rw [hcell, if_pos hpos, if_pos (by omega)]
  · rw [if_neg hpos, if_neg (by omega)]

theorem marks_columns (htouches : r.Touches line) (hfirst : 0 ≤ r.firstIn line)
    (hstop : r.firstIn line < r.stopIn line length) (hlength : r.firstIn line < length) :
    Columns.Marks ⟨r.firstIn line, min (r.stopIn line length) length⟩ r line length where
  first := hfirst
  lt := Int.lt_min.2 ⟨hstop, hlength⟩
  last := Int.min_le_right _ _
  columns := by
    intro _ k
    show r.firstIn line ≤ k ∧ (k : Int) < min (r.stopIn line length) length ↔ _
    constructor
    · rintro ⟨hk, hlast⟩
      have hlt : k < length := by omega
      exact ⟨hlt, (r.contains_iff htouches hlt).2 ⟨hk, by omega⟩⟩
    · rintro ⟨hlt, hk⟩
      obtain ⟨hk, hlast⟩ := (r.contains_iff htouches hlt).1 hk
      exact ⟨hk, by omega⟩
  lastColumn := by
    intro hnone
    obtain ⟨k, hk⟩ := Int.eq_ofNat_of_zero_le hfirst
    have hlt : k < length := by omega
    exact absurd ⟨k, hlt, (r.contains_iff htouches hlt).2 ⟨by omega, by omega⟩⟩ hnone

theorem marks_lastColumn (htouches : r.Touches line) (hpos : 0 < length)
    (hlength : (length : Int) ≤ r.firstIn line) :
    Columns.Marks ⟨length - 1, length⟩ r line length where
  first := by
    show (0 : Int) ≤ length - 1
    omega
  lt := by
    show (length : Int) - 1 < length
    omega
  last := Int.le_refl _
  columns := by
    rintro ⟨k, hlt, hk⟩
    have hfirst := ((r.contains_iff htouches hlt).1 hk).1
    omega
  lastColumn _ := rfl

theorem exists_columns?_marks (h : r.IsProper) (htouches : r.Touches line) (hpos : 0 < length) :
    ∃ c, columns? r line length = some c ∧ c.Marks r line length := by
  by_cases hlength : r.firstIn line < length
  · have hstop := h.firstIn_lt_stopIn hlength
    exact ⟨_, columns?_of_lt hstop hlength,
      marks_columns htouches (h.firstIn_nonneg line) hstop hlength⟩
  · have hlength := Int.not_lt.1 hlength
    exact ⟨_, (columns?_of_le hlength).trans (if_pos hpos), marks_lastColumn htouches hpos hlength⟩

theorem columns?_zero (h : r.IsProper) : columns? r line 0 = none := by
  have hlength : ((0 : Nat) : Int) ≤ r.firstIn line := h.firstIn_nonneg line
  exact columns?_of_le hlength

def columnsIn? (r : Range) (length line : Nat) : Option Columns :=
  if r.Touches line then columns? r line length else none

theorem coverage_eq (lengths : List Nat) (r : Range) : coverage lengths r =
    lengths.zipIdx.filterMap fun x => (columnsIn? r x.1 x.2).map (x.2, ·) := by
  rw [coverage]
  apply List.filterMap_congr
  rintro ⟨length, line⟩ -
  show (if r.Touches line then _ else _) = _
  rw [columnsIn?]
  split <;> rfl

def columnsAt? (lengths : List Nat) (line : Nat) (d : Diagnostic) : Option Columns :=
  lengths[line]?.bind (columnsIn? d.range · line)

theorem addColumns_eq (line : Nat) (c : Columns) (spans : List (Nat × List Columns)) :
    addColumns line c spans = Groups.add line c spans := by
  induction spans with
  | nil => rfl
  | cons entry spans ih => rw [addColumns, Groups.add, ih]

theorem lineSpans_eq (ds : List Diagnostic) (lengths : List Nat) :
    lineSpans ds lengths = Groups.addAll [] (ds.flatMap fun d => coverage lengths d.range) := by
  simp only [lineSpans, Groups.addAll, addColumns_eq]

theorem get_lineSpans (ds : List Diagnostic) (lengths : List Nat) (line : Nat) :
    Groups.get (lineSpans ds lengths) line = ds.filterMap (columnsAt? lengths line) := by
  rw [lineSpans_eq, Groups.get_addAll, Groups.ofKey_flatMap, List.filterMap_eq_flatMap_toList]
  simp only [coverage_eq, Groups.ofKey_zipIdx]
  rfl

/-- Each line has what is marked for the diagnostics that touch it, in their order, and nothing
else. A line without columns, or one that is not there, has nothing. -/
structure MarksEach (ds : List Diagnostic) (lengths : List Nat)
    (spans : List (Nat × List Columns)) : Prop where
  wellFormed : Groups.WellFormed spans
  marks : ∀ line : Nat, List.Forall₂ (fun d c => c.Marks d.range line (lengths.getD line 0))
    (ds.filter fun d => d.range.Touches line ∧ 0 < lengths.getD line 0) (Groups.get spans line)

variable {d : Diagnostic} {lengths : List Nat}

theorem exists_columnsAt?_marks (h : d.range.IsProper)
    (hline : d.range.Touches line ∧ 0 < lengths.getD line 0) :
    ∃ c, columnsAt? lengths line d = some c ∧ c.Marks d.range line (lengths.getD line 0) := by
  obtain ⟨htouches, hpos⟩ := hline
  rw [List.getD_eq_getElem?_getD] at hpos ⊢
  cases hlength : lengths[line]? with
  | none => simp [hlength] at hpos
  | some length =>
      rw [hlength] at hpos
      obtain ⟨c, hc, hmarks⟩ := exists_columns?_marks h htouches hpos
      refine ⟨c, ?_, hmarks⟩
      rw [columnsAt?, hlength]
      exact (if_pos htouches).trans hc

theorem columnsAt?_eq_none (h : d.range.IsProper)
    (hline : ¬ (d.range.Touches line ∧ 0 < lengths.getD line 0)) :
    columnsAt? lengths line d = none := by
  rw [columnsAt?]
  cases hlength : lengths[line]? with
  | none => rfl
  | some length =>
      show columnsIn? d.range length line = none
      rw [columnsIn?]
      split
      next htouches =>
        have hpos : ¬ 0 < length := by
          rwa [and_iff_right htouches, List.getD_eq_getElem?_getD, hlength] at hline
        rw [Nat.eq_zero_of_not_pos hpos]
        exact columns?_zero h
      next => rfl

theorem exists_marks_of_mem {ds : List Diagnostic} {cs : List Columns}
    (h : List.Forall₂ (fun d c => c.Marks d.range line length) ds cs) :
    ∀ c ∈ cs, ∃ r, c.Marks r line length := by
  induction h with
  | nil => nofun
  | cons hc _ ih => exact List.forall_mem_cons.2 ⟨⟨_, hc⟩, ih⟩

theorem isProper_of_marks {ds : List Diagnostic} {cs : List Columns}
    (h : List.Forall₂ (fun d c => c.Marks d.range line length) ds cs) : ∀ c ∈ cs, c.IsProper := by
  intro c hc
  obtain ⟨r, hmarks⟩ := exists_marks_of_mem h c hc
  exact hmarks.toIsProper

theorem marksEach_lineSpans {ds : List Diagnostic} (h : ∀ d ∈ ds, d.range.IsProper)
    (lengths : List Nat) : MarksEach ds lengths (lineSpans ds lengths) where
  wellFormed := lineSpans_eq ds lengths ▸ Groups.wellFormed_addAll Groups.wellFormed_nil _
  marks line := by
    rw [get_lineSpans]
    induction ds with
    | nil => exact .nil
    | cons d ds ih =>
        obtain ⟨hd, hds⟩ := List.forall_mem_cons.1 h
        by_cases hline : d.range.Touches line ∧ 0 < lengths.getD line 0
        · obtain ⟨c, hc, hmarks⟩ := exists_columnsAt?_marks hd hline
          rw [List.filter_cons_of_pos (by simpa using hline), List.filterMap_cons_some hc]
          exact .cons hmarks (ih hds)
        · rw [List.filter_cons_of_neg (by simpa using hline),
            List.filterMap_cons_none (columnsAt?_eq_none hd hline)]
          exact ih hds

end Source
end JsonnetPreview
