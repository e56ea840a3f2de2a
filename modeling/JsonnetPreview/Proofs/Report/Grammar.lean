import JsonnetPreview.Proofs.Report.Interruption
import JsonnetPreview.Proofs.Report.Position

namespace JsonnetPreview.Report

open Numeral Text

inductive IsPlace : Text → Location → Prop
  | mk {l c : Numeral} {t u : Text} (hl : l.Spells t) (hc : c.Spells u) :
      IsPlace (t ++ ":" ++ u) ⟨l.value, c.value⟩

/-- The four forms of a position, with what they denote. -/
inductive IsPosition : Text → LocationRange → Prop
  | parenthesized {t u : Text} {a b : Location} (ht : IsPlace t a) (hu : IsPlace u b) :
      IsPosition ("(" ++ t ++ ")-(" ++ u ++ ")") ⟨a, b⟩
  | multiline {t u : Text} {a b : Location} (ht : IsPlace t a) (hu : IsPlace u b) :
      IsPosition (t ++ "-" ++ u) ⟨a, b⟩
  | line {t u : Text} {a : Location} {c : Numeral} (ht : IsPlace t a) (hc : c.Spells u) :
      IsPosition (t ++ "-" ++ u) ⟨a, ⟨a.line, c.value⟩⟩
  | point {t : Text} {a : Location} (ht : IsPlace t a) : IsPosition t ⟨a, a⟩

namespace Spells

variable {ps : List Piece} {ns : List Numeral} {q : Text}

theorem of_place (h : Spells (.numeral :: .mark ':' :: .numeral :: ps) ns q) :
    ∃ (l c : Numeral) (ms : List Numeral) (t u : Text), ns = l :: c :: ms ∧ q = t ++ u ∧
      IsPlace t ⟨l.value, c.value⟩ ∧ Spells ps ms u := by
  cases h with
  | numeral hl h =>
      cases h with
      | mark m h =>
          cases h with
          | numeral hc h => exact ⟨_, _, _, _, _, rfl, by simp [ofString], .mk hl hc, h⟩

theorem place {t : Text} {a : Location} (ht : IsPlace t a) (h : Spells ps ns q) :
    ∃ l c : Numeral, a = ⟨l.value, c.value⟩ ∧
      Spells (.numeral :: .mark ':' :: .numeral :: ps) (l :: c :: ns) (t ++ q) := by
  cases ht with
  | @mk l c t u hl hc =>
      refine ⟨l, c, rfl, ?_⟩
      simpa [ofString] using Spells.numeral hl (.mark ':' (.numeral hc h))

theorem exists_isPosition {s : Shape} (h : Spells s.pieces ns q) :
    ∃ r, s.denote (ns.map value) = some r ∧ IsPosition q r := by
  cases s with
  | parenthesized =>
      obtain ⟨q₁, rfl, h₁⟩ := h.of_mark
      obtain ⟨l, c, ms, t, q₂, rfl, rfl, ht, h₂⟩ := h₁.of_place
      obtain ⟨q₃, rfl, h₃⟩ := h₂.of_mark
      obtain ⟨q₄, rfl, h₄⟩ := h₃.of_mark
      obtain ⟨q₅, rfl, h₅⟩ := h₄.of_mark
      obtain ⟨l', c', ms', u, q₆, rfl, rfl, hu, h₆⟩ := h₅.of_place
      obtain ⟨q₇, rfl, h₇⟩ := h₆.of_mark
      cases h₇
      exact ⟨_, rfl, by simpa [ofString] using IsPosition.parenthesized ht hu⟩
  | multiline =>
      obtain ⟨l, c, ms, t, q₁, rfl, rfl, ht, h₁⟩ := h.of_place
      obtain ⟨q₂, rfl, h₂⟩ := h₁.of_mark
      obtain ⟨l', c', ms', u, q₃, rfl, rfl, hu, h₃⟩ := h₂.of_place
      cases h₃
      exact ⟨_, rfl, by simpa [ofString] using IsPosition.multiline ht hu⟩
  | line =>
      obtain ⟨l, c, ms, t, q₁, rfl, rfl, ht, h₁⟩ := h.of_place
      obtain ⟨q₂, rfl, h₂⟩ := h₁.of_mark
      cases h₂ with
      | numeral hc h₃ =>
          cases h₃
          exact ⟨_, rfl, by simpa [ofString] using IsPosition.line ht hc⟩
  | point =>
      obtain ⟨l, c, ms, t, q₁, rfl, rfl, ht, h₁⟩ := h.of_place
      cases h₁
      exact ⟨_, rfl, by simpa using IsPosition.point ht⟩

end Spells

theorem IsPosition.exists_spells {q : Text} {r : LocationRange} (h : IsPosition q r) :
    ∃ (s : Shape) (ns : List Numeral),
      Spells s.pieces ns q ∧ s.denote (ns.map value) = some r := by
  cases h with
  | parenthesized ht hu =>
      obtain ⟨l', c', rfl, h⟩ := Spells.place hu (.mark ')' .nil)
      obtain ⟨l, c, rfl, h⟩ := Spells.place ht (.mark ')' (.mark '-' (.mark '(' h)))
      refine ⟨.parenthesized, [l, c, l', c'], ?_, rfl⟩
      simpa [ofString, Shape.pieces] using Spells.mark '(' h
  | multiline ht hu =>
      obtain ⟨l', c', rfl, h⟩ := Spells.place hu .nil
      obtain ⟨l, c, rfl, h⟩ := Spells.place ht (.mark '-' h)
      exact ⟨.multiline, [l, c, l', c'], by simpa [ofString, Shape.pieces] using h, rfl⟩
  | @line t u a c' ht hc' =>
      obtain ⟨l, c, rfl, h⟩ := Spells.place ht (.mark '-' (.numeral hc' .nil))
      exact ⟨.line, [l, c, c'], by simpa [ofString, Shape.pieces] using h, rfl⟩
  | point ht =>
      obtain ⟨l, c, rfl, h⟩ := Spells.place ht .nil
      exact ⟨.point, [l, c], by simpa [Shape.pieces] using h, rfl⟩

/-- A text begins with a position, behind which it ends or goes on with white space or a colon. -/
structure Begins (t q : Text) (r : LocationRange) : Prop where
  isPosition : IsPosition q r
  delimited : ∃ rest, t = q ++ rest ∧ ∀ c ∈ rest.head?, c.isBlank = true ∨ c = .char ':'

structure IsLongest (t q : Text) (r : LocationRange) : Prop extends Begins t q r where
  longest : ∀ q' r', Begins t q' r' → q'.length ≤ q.length

/-- A position as it is read, and the text that it takes up. -/
structure Reading.Spells (reading : Reading) (t q : Text) (r : LocationRange) : Prop where
  text_eq : t = q ++ reading.rest
  spells : Report.Spells reading.shape.pieces reading.numerals q
  denote : reading.shape.denote (reading.numerals.map value) = some r

theorem Reading.Spells.length_add {reading : Reading} {t q : Text} {r : LocationRange}
    (h : reading.Spells t q r) : q.length + reading.rest.length = t.length := by
  rw [h.text_eq, List.length_append]

theorem Reading.Spells.isInfix {reading : Reading} {t q : Text} {r : LocationRange}
    (h : reading.Spells t q r) (lead : Text) : q <:+: lead ++ t := by
  rw [h.text_eq]
  exact (List.prefix_append q _).isInfix.trans (List.suffix_append lead _).isInfix

namespace Reading

theorem exists_spells {t : Text} {reading : Reading} (h : ofShape? reading.shape t = some reading) :
    ∃ q r, reading.Spells t q r ∧ Begins t q r := by
  obtain ⟨-, hscan, hends⟩ := ofShape?_eq_some_iff.1 h
  obtain ⟨q, rfl, hq⟩ := exists_spells_of_scanPieces hscan
  obtain ⟨r, hr, hposition⟩ := hq.exists_isPosition
  exact ⟨q, r, ⟨rfl, hq, hr⟩, hposition, reading.rest, rfl, (endsPosition_iff _).1 hends⟩

theorem exists_of_begins {t q : Text} {r : LocationRange} (h : Begins t q r) :
    ∃ reading : Reading, ofShape? reading.shape t = some reading ∧ reading.Spells t q r := by
  obtain ⟨s, ns, hspells, hr⟩ := h.isPosition.exists_spells
  obtain ⟨rest, rfl, hdelimited⟩ := h.delimited
  have hends : endsPosition rest = true := (endsPosition_iff rest).2 hdelimited
  have hscan := hspells.scanPieces_append s.separated_pieces (ends_of_endsPosition hends)
  exact ⟨⟨s, ns, rest⟩, ofShape?_of_scan hscan hends, rfl, hspells, hr⟩

theorem isLongest_of_of? {t q : Text} {r : LocationRange} {reading : Reading}
    (h : of? t = some reading) (hq : reading.Spells t q r) (hbegins : Begins t q r) :
    IsLongest t q r := by
  obtain ⟨hfits, hlast⟩ := of?_eq_some_iff.1 h
  refine ⟨hbegins, fun q' r' hbegins' => ?_⟩
  obtain ⟨other, hother, hq'⟩ := exists_of_begins hbegins'
  have hlength := hq.length_add.trans hq'.length_add.symm
  rcases extends_or_extends hfits hother with hs | hs | hs
  · rw [← hs, hfits] at hother
    obtain rfl := Option.some.inj hother
    omega
  · have := length_rest_lt hother hfits hs
    omega
  · simp [hlast _ hs] at hother

theorem exists_of_isLongest {t q : Text} {r : LocationRange} (h : IsLongest t q r) :
    ∃ reading, of? t = some reading ∧ reading.Spells t q r := by
  obtain ⟨reading, hfits, hq⟩ := exists_of_begins h.toBegins
  refine ⟨reading, of?_eq_some_iff.2 ⟨hfits, fun s hs => ?_⟩, hq⟩
  rw [Option.eq_none_iff_forall_not_mem]
  intro other hother
  have hshape : other.shape = s := (ofShape?_eq_some_iff.1 hother).1
  obtain ⟨q', r', hq', hbegins'⟩ := exists_spells (hshape ▸ hother)
  have hlength := hq.length_add.trans hq'.length_add.symm
  have := length_rest_lt hfits hother hs
  have := h.longest q' r' hbegins'
  omega

end Reading

/-- No run of digits is too long to be read as one number. -/
def HasShortNumerals (t : Text) : Prop :=
  ∀ run, run <:+: t → (∀ c ∈ run, c.digit?.isSome) → run.length ≤ digitLimit

theorem hasShortNumerals_of_length_le {t : Text} (h : t.length ≤ digitLimit) : HasShortNumerals t :=
  fun _ hrun _ => hrun.length_le.trans h

theorem HasShortNumerals.length_le {t q : Text} (h : HasShortNumerals t) (hq : q <:+: t)
    {ps : List Piece} {ns : List Numeral} (hs : Spells ps ns q) :
    ∀ n ∈ ns, n.length ≤ digitLimit := by
  intro n hn
  obtain ⟨u, hu, hnu⟩ := hs.exists_infix hn
  exact hnu.length_eq ▸ h u (hu.trans hq) fun c hc => hnu.isSome_digit? hc

theorem HasShortNumerals.exists_read? {t : Text} (h : HasShortNumerals t) :
    ∃ range, LocationRange.read? t = .ok range := by
  rw [read?_eq_ok_iff]
  rintro ⟨reading, hof, n, hn, hlong⟩
  obtain ⟨lead, ht, -⟩ := Reading.exists_leads t
  obtain ⟨q, r, hq, -⟩ := Reading.exists_spells (Reading.fits_of_of? hof).1
  exact absurd hlong (Nat.not_lt.2 (h.length_le (ht ▸ hq.isInfix lead) hq.spells n hn))

namespace LocationRange

def numbers (r : LocationRange) : List Nat :=
  [r.first.line, r.first.column, r.last.line, r.last.column]

theorem isValid_iff (r : LocationRange) :
    r.isValid = true ↔ ¬(0 ∈ r.numbers ∨ r.last < r.first) := by
  simp [isValid, numbers, Nat.one_le_iff_ne_zero]
  tauto

end LocationRange

theorem of?_eq_none_iff_not_begins {t : Text} :
    Reading.of? t = none ↔ ∀ q r, ¬Begins t q r := by
  rw [Reading.of?_eq_none_iff]
  constructor
  · intro h q r hq
    obtain ⟨reading, hfits, -⟩ := Reading.exists_of_begins hq
    simp [h] at hfits
  · intro h s
    rw [Option.eq_none_iff_forall_not_mem]
    intro reading hfits
    obtain ⟨q, r, -, hq⟩ := Reading.exists_spells ((Reading.ofShape?_eq_some_iff.1 hfits).1 ▸ hfits)
    exact h q r hq

theorem exists_isLongest {t q : Text} {r : LocationRange} (h : Begins t q r) :
    ∃ q r, IsLongest t q r := by
  cases hof : Reading.of? t with
  | none => exact absurd h (of?_eq_none_iff_not_begins.1 hof q r)
  | some reading =>
      obtain ⟨q, r, hq, hbegins⟩ := Reading.exists_spells (Reading.fits_of_of? hof).1
      exact ⟨q, r, Reading.isLongest_of_of? hof hq hbegins⟩

theorem read?_of_isLongest {lead t q : Text} {r : LocationRange} (hlead : Leads lead t)
    (hshort : HasShortNumerals (lead ++ t)) (h : IsLongest t q r) :
    LocationRange.read? (lead ++ t) =
      .ok (if 0 ∈ r.numbers ∨ r.last < r.first then none else some r) := by
  obtain ⟨reading, hof, hq⟩ := Reading.exists_of_isLongest h
  have hvalues := mapM_value?_of_length_le (hshort.length_le (hq.isInfix lead) hq.spells)
  rw [LocationRange.read?, Reading.skipLead_append hlead, hof]
  simp only [hvalues, bind, Except.bind, pure, Except.pure, hq.denote, Option.filter_some,
    r.isValid_iff, ite_not]

/-- A text that begins with no position has no range. If it begins with some, the longest of them
decides: it has the range that this one denotes, or none if a number of it is zero or its end stands
before its beginning. -/
theorem read?_eq_longest (token : Text) (h : HasShortNumerals token) :
    ∃ lead t, token = lead ++ t ∧ Leads lead t ∧
      ((∀ q r, ¬Begins t q r) → LocationRange.read? token = .ok none) ∧
      ((∃ q r, Begins t q r) → ∃ q r, IsLongest t q r) ∧
      ∀ q r, IsLongest t q r → LocationRange.read? token =
        .ok (if 0 ∈ r.numbers ∨ r.last < r.first then none else some r) := by
  obtain ⟨lead, htoken, hlead⟩ := Reading.exists_leads token
  generalize Reading.skipLead token = t at htoken hlead
  subst htoken
  refine ⟨lead, t, rfl, hlead, fun hnone => ?_, fun ⟨q, r, hq⟩ => exists_isLongest hq,
    fun q r => read?_of_isLongest hlead h⟩
  rw [LocationRange.read?, Reading.skipLead_append hlead, of?_eq_none_iff_not_begins.2 hnone]

def zeroColumn : Text := "5:1-7:0 x"

theorem isLongest_zeroColumn : IsLongest zeroColumn "5:1-7:0" ⟨⟨5, 1⟩, ⟨7, 0⟩⟩ := by
  have hof : Reading.of? zeroColumn = some ⟨.multiline, [[5], [1], [7], [0]], " x"⟩ := by decide
  obtain ⟨q, r, hq, hbegins⟩ := Reading.exists_spells (Reading.fits_of_of? hof).1
  have htext : ofString "5:1-7:0" ++ ofString " x" = q ++ ofString " x" := hq.text_eq
  obtain rfl := List.append_cancel_right htext
  obtain rfl : ⟨⟨5, 1⟩, ⟨7, 0⟩⟩ = r := Option.some.inj hq.denote
  exact Reading.isLongest_of_of? hof hq hbegins

theorem begins_zeroColumn : Begins zeroColumn "5:1-7" ⟨⟨5, 1⟩, ⟨5, 7⟩⟩ := by
  have hdigit (d : Nat) (hd : d < 10) : Numeral.Spells [d] [.char (Nat.digitChar d)] :=
    ⟨List.cons_ne_nil _ _, digits_text (n := [d]) (by simpa using hd)⟩
  refine ⟨?_, ":0 x", by decide, by decide⟩
  exact .line (.mk (hdigit 5 (by decide)) (hdigit 1 (by decide))) (hdigit 7 (by decide))

theorem read?_eq_longest_zeroColumn :
    HasShortNumerals (" : " ++ zeroColumn) ∧ Begins zeroColumn "5:1-7" ⟨⟨5, 1⟩, ⟨5, 7⟩⟩ ∧
      IsLongest zeroColumn "5:1-7:0" ⟨⟨5, 1⟩, ⟨7, 0⟩⟩ ∧
      LocationRange.read? (" : " ++ zeroColumn) = .ok none := by
  have hshort : HasShortNumerals (" : " ++ zeroColumn) :=
    hasShortNumerals_of_length_le (by decide)
  obtain ⟨lead, t, htoken, hlead, -, -, hread⟩ := read?_eq_longest (" : " ++ zeroColumn) hshort
  obtain rfl : zeroColumn = t := by
    rw [← Reading.skipLead_append hlead, ← htoken]
    decide
  exact ⟨hshort, begins_zeroColumn, isLongest_zeroColumn, hread _ _ isLongest_zeroColumn⟩

end JsonnetPreview.Report
