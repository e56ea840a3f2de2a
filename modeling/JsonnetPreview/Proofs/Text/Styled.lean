import JsonnetPreview.Proofs.Text.Trim
import JsonnetPreview.Text.Styled
import Mathlib.Data.List.Basic

namespace JsonnetPreview

namespace Text

def slice (t : Text) (first stop : Int) : Text := (t.take stop.toNat).drop first.toNat

theorem slice_within (a t b : Text) {i j : Int} (hi : 0 ≤ i) (hj : 0 ≤ j) :
    (a ++ (t ++ b)).slice (a.length + i) (a.length + min (t.length : Int) j) = t.slice i j := by
  obtain ⟨i, rfl⟩ := Int.eq_ofNat_of_zero_le hi
  obtain ⟨j, rfl⟩ := Int.eq_ofNat_of_zero_le hj
  have hfirst : ((a.length : Int) + i).toNat = a.length + i := by omega
  have hstop : ((a.length : Int) + min (t.length : Int) j).toNat = a.length + min t.length j := by
    omega
  rw [slice, hfirst, hstop, List.take_length_add_append, List.drop_length_add_append,
    List.take_append_of_le_length (Nat.min_le_left _ _), Nat.min_comm, ← List.take_eq_take_min]
  rfl

theorem slice_min (t : Text) (i j : Int) : t.slice i (min (t.length : Int) j) = t.slice i j := by
  have hstop : (min (t.length : Int) j).toNat = min j.toNat t.length := by omega
  rw [slice, hstop, ← List.take_eq_take_min, slice]

theorem slice_of_length_le {t : Text} {i : Int} (h : t.length ≤ i) (j : Int) : t.slice i j = [] :=
  List.drop_eq_nil_of_le (Nat.le_trans (List.length_take_le' _ _) (by omega))

theorem exists_slice_trimEnd (t : Text) (i j : Int) :
    ∃ b, IsBlank b ∧ t.slice i j = (trimEnd t).slice i j ++ b := by
  obtain ⟨b, hb, ht⟩ := exists_trimEnd t
  refine ⟨(b.take (j.toNat - (trimEnd t).length)).drop
    (i.toNat - ((trimEnd t).take j.toNat).length), ?_, ?_⟩
  · exact fun c hc => hb c (List.mem_of_mem_take (List.mem_of_mem_drop hc))
  · conv_lhs => rw [slice, ht, List.take_append, List.drop_append]
    rfl

theorem count_newline {t : Text} (h : IsLine t) : t.count (.char '\n') = 0 :=
  List.count_eq_zero.2 fun hc => absurd (h _ hc) (by decide)

end Text

namespace Styled

def under (s : Styled) (x : Span) : Text := s.plain.slice x.start x.stop

def underlines (s : Styled) : List Span := s.spans.filter (·.style = .boldRedUnderline)

theorem showable_append (t u : Text) : showable (t ++ u) = showable t ++ showable u :=
  List.filter_append t u

/-- Where an offset in a text is in what is shown of the text. -/
def shownOffset (t : Text) (i : Int) : Nat := (showable (t.take i.toNat)).length

theorem showable_slice (t : Text) {i j : Int} (h : i ≤ j) :
    showable (t.slice i j) = (showable t).slice (shownOffset t i) (shownOffset t j) := by
  have htake : (t.take j.toNat).take i.toNat = t.take i.toNat := by
    rw [List.take_take, Nat.min_eq_left (by omega)]
  have hfirst : t.take j.toNat = t.take i.toNat ++ t.slice i j := by
    rw [← htake, Text.slice, List.take_append_drop]
  have hstop : showable (t.take j.toNat) = (showable t).take (shownOffset t j) := by
    conv_rhs => rw [← List.take_append_drop j.toNat t, showable_append, List.take_append_drop]
    exact (List.take_left' rfl).symm
  calc showable (t.slice i j)
    _ = (showable (t.take j.toNat)).drop (shownOffset t i) := by
      rw [hfirst, showable_append]
      exact (List.drop_left' rfl).symm
    _ = (showable t).slice (shownOffset t i) (shownOffset t j) := by
      rw [hstop]
      rfl

theorem shownOffset_le (t : Text) (i : Int) : shownOffset t i ≤ (showable t).length :=
  ((List.take_sublist i.toNat t).filter _).length_le

theorem shownOffset_eq {t : Text} {i : Int} (hi : 0 ≤ i) (hlength : i ≤ t.length)
    (h : ∀ c ∈ t.take i.toNat, c.movesCursor = false) : (shownOffset t i : Int) = i := by
  rw [shownOffset, showable, List.filter_eq_self.2 (by simpa using h), List.length_take]
  omega

def Bounded (s : Styled) : Prop := ∀ x ∈ s.spans, x.stop ≤ s.plain.length

variable {s t : Styled}

theorem underlines_appendStyled (h : t.base ≠ some .boldRedUnderline) :
    (s.appendStyled t).underlines = s.underlines ++ t.underlines.map (·.shift s.plain.length) := by
  obtain ⟨plain, spans, base⟩ := t
  cases base with
  | none => simp [underlines, appendStyled, spansAt, List.filter_map, Function.comp_def, Span.shift]
  | some style =>
      have hstyle : style ≠ .boldRedUnderline := fun hbold => h (congrArg some hbold)
      simp [underlines, appendStyled, spansAt, List.filter_map, Function.comp_def, Span.shift,
        hstyle]

theorem Bounded.appendStyled (hs : s.Bounded) (ht : t.Bounded) : (s.appendStyled t).Bounded := by
  intro x hx
  have hlength : ((s.appendStyled t).plain.length : Int) = s.plain.length + t.plain.length := by
    simp [Styled.appendStyled]
  rw [hlength]
  rcases List.mem_append.1 hx with hx | hx
  · have hstop := hs x hx
    omega
  rcases List.mem_append.1 hx with hx | hx
  · cases hbase : t.base with
    | none => simp [hbase] at hx
    | some style =>
        rw [hbase] at hx
        exact List.mem_singleton.1 hx ▸ Int.le_refl _
  · obtain ⟨y, hy, rfl⟩ := List.mem_map.1 hx
    have hstop := ht y hy
    simp only [Span.shift]
    omega

theorem append_of_ne_nil (s : Styled) {u : Text} (h : u ≠ []) (style : Option Style) :
    s.append u style = s.appendStyled (ofText u style) := by
  rw [append, if_neg (by simpa using h), appendStyled]
  cases style <;> simp [ofText, spansAt]

theorem plain_append (s : Styled) (u : Text) (style : Option Style) :
    (s.append u style).plain = s.plain ++ showable u := by
  by_cases h : u = []
  · simp [append, h, showable]
  · rw [append_of_ne_nil s h]
    rfl

theorem underlines_append (s : Styled) (u : Text) {style : Option Style}
    (h : style ≠ some .boldRedUnderline) : (s.append u style).underlines = s.underlines := by
  by_cases hu : u = []
  · simp [append, hu]
  · rw [append_of_ne_nil s hu, underlines_appendStyled h]
    exact List.append_nil _

theorem Bounded.append (hs : s.Bounded) (u : Text) (style : Option Style) :
    (s.append u style).Bounded := by
  by_cases hu : u = []
  · simpa [Styled.append, hu] using hs
  · rw [append_of_ne_nil s hu]
    exact hs.appendStyled nofun

theorem trimEnd_of_length_eq (h : (Text.trimEnd s.plain).length = s.plain.length) :
    Text.trimEnd s.plain = s.plain ∧ s.trimEnd = s := by
  obtain ⟨b, -, hb⟩ := Text.exists_trimEnd s.plain
  refine ⟨?_, if_pos h⟩
  have hnil : b = [] := by
    have hlength := congrArg List.length hb
    rw [List.length_append] at hlength
    exact List.eq_nil_of_length_eq_zero (by omega)
  rw [hnil, List.append_nil] at hb
  exact hb.symm

theorem plain_trimEnd (s : Styled) : s.trimEnd.plain = Text.trimEnd s.plain := by
  by_cases h : (Text.trimEnd s.plain).length = s.plain.length
  · rw [(trimEnd_of_length_eq h).1, (trimEnd_of_length_eq h).2]
  · rw [trimEnd, if_neg h]

/-- What is underlined in a trimmed text has lost no more than was trimmed. -/
theorem flatMap_under_trimEnd (s : Styled) : s.trimEnd.underlines.flatMap s.trimEnd.under =
    s.underlines.flatMap fun x => (Text.trimEnd s.plain).slice x.start x.stop := by
  by_cases h : (Text.trimEnd s.plain).length = s.plain.length
  · rw [(trimEnd_of_length_eq h).1, (trimEnd_of_length_eq h).2]
    rfl
  · have hunder : s.trimEnd.under =
        fun x => (Text.trimEnd s.plain).slice x.start x.stop := by
      funext x
      rw [under, plain_trimEnd]
    rw [hunder, underlines, trimEnd, if_neg h, underlines]
    induction s.spans with
    | nil => rfl
    | cons x xs ih =>
        by_cases hstart : x.start < (Text.trimEnd s.plain).length
        · by_cases hstyle : x.style = .boldRedUnderline
          · simpa [hstart, hstyle, Text.slice_min] using ih
          · simpa [hstart, hstyle] using ih
        · have hnil := Text.slice_of_length_le (Int.not_lt.1 hstart) x.stop
          by_cases hstyle : x.style = .boldRedUnderline
          · simpa [hstart, hstyle, hnil] using ih
          · simpa [hstart, hstyle] using ih

def lineOf (s : Styled) (x : Span) : Nat := (s.plain.take x.start.toNat).count (.char '\n')

def underlinedIn (s : Styled) (line : Nat) : List Text :=
  (s.underlines.filter (s.lineOf · = line)).map s.under

theorem exists_of_mem_underlines_trimEnd {y : Span} (h : y ∈ s.trimEnd.underlines) :
    ∃ x ∈ s.underlines, s.trimEnd.lineOf y = s.lineOf x := by
  by_cases hlength : (Text.trimEnd s.plain).length = s.plain.length
  · rw [(trimEnd_of_length_eq hlength).2] at h ⊢
    exact ⟨y, h, rfl⟩
  · have hmem := (List.mem_filter.1 h).1
    rw [trimEnd, if_neg hlength] at hmem
    obtain ⟨x, hx, rfl⟩ := List.mem_map.1 hmem
    obtain ⟨hx, hstart⟩ := List.mem_filter.1 hx
    refine ⟨x, List.mem_filter.2 ⟨hx, (List.mem_filter.1 h).2⟩, ?_⟩
    obtain ⟨b, -, hb⟩ := Text.exists_trimEnd s.plain
    have hstart : x.start.toNat ≤ (Text.trimEnd s.plain).length := by
      have hlt : x.start < (Text.trimEnd s.plain).length := by simpa using hstart
      omega
    conv_rhs => rw [lineOf, hb, List.take_append_of_le_length hstart]
    rw [lineOf, plain_trimEnd]

theorem Bounded.trimEnd (h : s.Bounded) : s.trimEnd.Bounded := by
  rw [Styled.trimEnd]
  split
  · exact h
  · intro x hx
    obtain ⟨y, -, rfl⟩ := List.mem_map.1 hx
    exact Int.min_le_left _ _

end Styled

end JsonnetPreview
