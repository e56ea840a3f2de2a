import Mathlib.Data.List.Nodup
import JsonnetPreview.Proofs.Yaml.Number

namespace JsonnetPreview.Yaml

open Json (fractionPart exponentPart fractionPart_of_ne_nil)

/-- A plain text that begins like nothing else. -/
structure IsWord (t : Text) : Prop where
  inner : hasInnerIndicator t = false
  lines : ∀ c ∈ t, c ≠ .char '\n'
  head : ∃ c r, t = c :: r ∧ isBlank c = false ∧ c ≠ .char '\'' ∧ c ≠ .char '"' ∧
    (c = .char '-' ∨ c = .char '?' → startsWithGap r = false)

variable {c : CodePoint} {t : Text} {v w : Json}

theorem not_newline_of_isBreak (h : isBreak c = false) : c ≠ .char '\n' := by
  rintro rfl
  cases h

theorem isWord_of_allowsPlain (h : allowsPlain t = true) : IsWord t := by
  simp only [allowsPlain, Bool.and_eq_true, Bool.not_eq_true'] at h
  obtain ⟨⟨⟨⟨⟨-, hlines⟩, hloose⟩, hleading⟩, hinner⟩, hreads⟩ := h
  have hbreak (c : CodePoint) (hc : c ∈ t) : isBreak c = false := by
    simpa using List.any_eq_false.1 hlines c hc
  refine ⟨hinner, fun c hc => not_newline_of_isBreak (hbreak c hc), ?_⟩
  cases t with
  | nil => cases hreads
  | cons c r =>
      have hends : (isBlank c || isBreak c) = false := (Bool.or_eq_false_iff.1 hloose).1
      have hblank : isBlank c = false := (Bool.or_eq_false_iff.1 hends).1
      refine ⟨c, r, rfl, hblank, ?_, ?_, ?_⟩
      · rintro rfl
        simp [hasLeadingIndicator, leadingIndicators] at hleading
      · rintro rfl
        simp [hasLeadingIndicator, leadingIndicators] at hleading
      · rintro (rfl | rfl) <;>
          exact (by simpa [hasLeadingIndicator, leadingIndicators] using hleading : _ ∧ _).2

def wordMarks : Text := "0123456789.-+einfaltrusl[]\x7b\x7d"

theorem isWord_of_marks (h : t ⊆ wordMarks) (hne : t ≠ []) (hminus : t ≠ [.char '-']) :
    IsWord t := by
  have hmarks : ∀ c ∈ wordMarks, c ≠ .char ':' ∧ isGap c = false ∧ isBlank c = false ∧
      c ≠ .char '\n' ∧ c ≠ .char '\'' ∧ c ≠ .char '"' ∧ c ≠ .char '?' := by decide
  have hinner {t : Text} (h : t ⊆ wordMarks) : hasInnerIndicator t = false := by
    induction t with
    | nil => rfl
    | cons c r ih =>
        obtain ⟨hc, hr⟩ := List.cons_subset.1 h
        obtain ⟨hcolon, hgap, -⟩ := hmarks c hc
        simp [hasInnerIndicator, hcolon, hgap, ih hr]
  refine ⟨hinner h, fun c hc => (hmarks c (h hc)).2.2.2.1, ?_⟩
  obtain ⟨c, r, rfl⟩ := List.exists_cons_of_ne_nil hne
  obtain ⟨hc, hr⟩ := List.cons_subset.1 h
  obtain ⟨-, -, hblank, -, hsingle, hdouble, hquestion⟩ := hmarks c hc
  refine ⟨c, r, rfl, hblank, hsingle, hdouble, ?_⟩
  rintro (rfl | rfl)
  · cases r with
    | nil => exact absurd rfl hminus
    | cons d r => exact (hmarks d (hr List.mem_cons_self)).2.1
  · exact absurd rfl hquestion

def numberMarks : Text := "0123456789-"

theorem text_subset {m : Numeral} (hm : ∀ d ∈ m, d < 10) : m.text ⊆ numberMarks := by
  have hdigit : ∀ d < 10, CodePoint.char (Nat.digitChar d) ∈ numberMarks := by decide
  intro c hc
  obtain ⟨d, hd, rfl⟩ := List.mem_map.1 hc
  exact hdigit d (hm d hd)

theorem ofInt_subset (n : Int) : Text.ofInt n ⊆ numberMarks := by
  have hnat (n : Nat) : Text.ofNat n ⊆ numberMarks := by
    rw [← Numeral.text_ofNat]
    exact text_subset (Json.isWhole_ofNat n).digits
  cases n with
  | ofNat n => exact hnat n
  | negSucc n => exact List.cons_subset.2 ⟨by decide, hnat (n + 1)⟩

theorem numberMarks_subset : numberMarks ⊆ wordMarks := by decide

theorem isWord_ofInt (n : Int) : IsWord (Text.ofInt n) := by
  refine isWord_of_marks (List.Subset.trans (ofInt_subset n) numberMarks_subset) ?_ ?_
  · cases n with
    | ofNat n =>
        obtain ⟨d, -, r, hr⟩ := exists_ofNat_eq_cons n
        simp [Text.ofInt, hr]
    | negSucc n => exact List.cons_ne_nil _ _
  · cases n with
    | ofNat n => exact ofNat_ne_minus n []
    | negSucc n =>
        obtain ⟨d, -, r, hr⟩ := exists_ofNat_eq_cons (n + 1)
        simp [Text.ofInt, hr]

theorem IsPointed.subset (h : IsPointed t) : t ⊆ wordMarks := by
  have htext {m : Numeral} (hm : ∀ d ∈ m, d < 10) : m.text ⊆ wordMarks :=
    List.Subset.trans (text_subset hm) numberMarks_subset
  have hfraction {w f : Numeral} (hw : ∀ d ∈ w, d < 10) (hf : ∀ d ∈ f, d < 10) (hne : f ≠ []) :
      w.text ++ fractionPart f ⊆ wordMarks := by
    rw [fractionPart_of_ne_nil hne]
    exact List.append_subset.2 ⟨htext hw, List.cons_subset.2 ⟨by decide, htext hf⟩⟩
  cases h with
  | positional hw hf hne => exact hfraction hw.digits hf hne
  | scientific hw hf hne negative he hdigits =>
      refine List.append_subset.2 ⟨hfraction hw.digits hf hne, ?_⟩
      refine List.cons_subset.2 ⟨by decide, List.cons_subset.2 ⟨?_, htext hdigits⟩⟩
      cases negative <;> decide

theorem IsPointed.point_mem (h : IsPointed t) : .char '.' ∈ t := by
  cases h with
  | positional hw hf hne | scientific hw hf hne => simp [fractionPart_of_ne_nil hne]

theorem render_subset (x : Binary64) : layout.render x ⊆ wordMarks := by
  cases x with
  | finite negative x =>
      have hx := (writes_shortest x).isPointed.subset
      cases negative with
      | false => exact hx
      | true => exact List.cons_subset.2 ⟨by decide, hx⟩
  | infinite negative => cases negative <;> decide
  | nan => decide

theorem point_mem_render (x : Binary64) : .char '.' ∈ layout.render x := by
  cases x with
  | finite negative x =>
      have hx := (writes_shortest x).isPointed.point_mem
      cases negative with
      | false => exact hx
      | true => exact List.mem_cons_of_mem _ hx
  | infinite negative => cases negative <;> decide
  | nan => decide

theorem isWord_render (x : Binary64) : IsWord (layout.render x) := by
  have hpoint := point_mem_render x
  refine isWord_of_marks (render_subset x) (List.ne_nil_of_mem hpoint) fun h => ?_
  rw [h] at hpoint
  exact absurd hpoint (by decide)

/-- What is written of a value that is no string, on a single line. -/
def literal (v : Json) : Text := writeLeaf ⟨0, false⟩ 0 v

def constants : List Json := [.null, .bool true, .bool false, .arr [], .obj []]

/-- A value without items of its own that is no string. -/
inductive IsLiteral : Json → Prop
  | constant {v : Json} (h : v ∈ constants) : IsLiteral v
  | int (n : Int) : IsLiteral (.int n)
  | float (x : Binary64) : IsLiteral (.float x)

theorem IsLiteral.isWord (h : IsLiteral v) : IsWord (literal v) := by
  cases h with
  | constant h =>
      have hall : ∀ v ∈ constants, literal v ⊆ wordMarks ∧ literal v ≠ [] ∧
          literal v ≠ [.char '-'] := by decide
      obtain ⟨hmarks, hne, hminus⟩ := hall v h
      exact isWord_of_marks hmarks hne hminus
  | int n => exact isWord_ofInt n
  | float x => exact isWord_render x

/-- A string that looks like another value is never plain. -/
theorem IsLiteral.not_allowsPlain (h : IsLiteral v) : allowsPlain (literal v) = false := by
  cases h with
  | constant h =>
      have hall : ∀ v ∈ constants, allowsPlain (literal v) = false := by decide
      exact hall v h
  | int n => simp [allowsPlain, readsAsString, literal, writeLeaf, isMatch_ofInt]
  | float x => simp [allowsPlain, readsAsString, literal, writeLeaf, isMatch_render]

theorem constants_injective (hv : v ∈ constants) (hw : w ∈ constants)
    (h : literal v = literal w) : v = w :=
  List.inj_on_of_nodup_map (by decide : (constants.map literal).Nodup) hv hw h

theorem not_number_of_mem_constants (h : v ∈ constants) :
    ¬literal v ⊆ numberMarks ∧ .char '.' ∉ literal v := by
  have hall : ∀ v ∈ constants, ¬literal v ⊆ numberMarks ∧ .char '.' ∉ literal v := by decide
  exact hall v h

theorem point_not_mem_ofInt (n : Int) : .char '.' ∉ Text.ofInt n :=
  fun h => absurd (ofInt_subset n h) (by decide)

theorem IsLiteral.injective (hv : IsLiteral v) (hw : IsLiteral w) (h : literal v = literal w) :
    v = w := by
  cases hv with
  | constant hv =>
      obtain ⟨hmarks, hpoint⟩ := not_number_of_mem_constants hv
      rw [h] at hmarks hpoint
      cases hw with
      | constant hw => exact constants_injective hv hw h
      | int n => exact absurd (ofInt_subset n) hmarks
      | float x => exact absurd (point_mem_render x) hpoint
  | int n =>
      cases hw with
      | constant hw => exact absurd (h ▸ ofInt_subset n) (not_number_of_mem_constants hw).1
      | int m => exact congrArg Json.int (ofInt_injective h)
      | float x =>
          have h : Text.ofInt n = layout.render x := h
          exact absurd (h ▸ point_mem_render x) (point_not_mem_ofInt n)
  | float x =>
      cases hw with
      | constant hw => exact absurd (h ▸ point_mem_render x) (not_number_of_mem_constants hw).2
      | int m =>
          have h : layout.render x = Text.ofInt m := h
          exact absurd (h ▸ point_mem_render x) (point_not_mem_ofInt m)
      | float y => exact congrArg Json.float (render_injective h)

end JsonnetPreview.Yaml
