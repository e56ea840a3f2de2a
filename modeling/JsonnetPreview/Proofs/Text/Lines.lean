import JsonnetPreview.Text.Blank
import JsonnetPreview.Text.Lines
import Mathlib.Data.List.Basic

namespace JsonnetPreview.Text

def IsLine (t : Text) : Prop := ∀ c ∈ t, c.isLineBreak = false

instance : DecidablePred IsLine := fun t =>
  inferInstanceAs (Decidable (∀ c ∈ t, c.isLineBreak = false))

theorem isLine_append {t u : Text} : IsLine (t ++ u) ↔ IsLine t ∧ IsLine u := by
  simp only [IsLine, List.mem_append, or_imp, forall_and]

theorem isLine_cons {c : CodePoint} {t : Text} :
    IsLine (c :: t) ↔ c.isLineBreak = false ∧ IsLine t := by
  simp only [IsLine, List.forall_mem_cons]

theorem not_isLineBreak_of_not_isBlank {c : CodePoint} (h : c.isBlank = false) :
    c.isLineBreak = false := by
  rw [Bool.eq_false_iff] at h ⊢
  refine fun hc => h ?_
  simp only [CodePoint.isLineBreak, Bool.or_eq_true, Bool.and_eq_true, decide_eq_true_eq,
    beq_iff_eq] at hc
  simp only [CodePoint.isBlank, Bool.or_eq_true, Bool.and_eq_true, decide_eq_true_eq, beq_iff_eq]
  omega

theorem not_isLineBreak_of_value {c : CodePoint} (h : 31 ≤ c.value) (h' : c.value < 0x85) :
    c.isLineBreak = false := by
  rw [Bool.eq_false_iff]
  intro hc
  simp only [CodePoint.isLineBreak, Bool.or_eq_true, Bool.and_eq_true, decide_eq_true_eq,
    beq_iff_eq] at hc
  omega

theorem lines_newline_cons (r : Text) : lines (.char '\n' :: r) = [] :: lines r := by
  rw [lines.eq_3 _ _ (by simp)]
  rfl

theorem extendFirst_append (c : CodePoint) {ls : List Text} (h : ls ≠ []) (ms : List Text) :
    extendFirst c (ls ++ ms) = extendFirst c ls ++ ms := by
  cases ls with
  | nil => exact absurd rfl h
  | cons l ls => rfl

theorem lines_ne_nil {t : Text} (h : t ≠ []) : lines t ≠ [] := by
  fun_cases lines t with
  | case1 => exact absurd rfl h
  | case2 r => simp
  | case3 c r _ _ => simp
  | case4 c r _ _ => cases lines r <;> simp [extendFirst]

theorem lines_append_newline {l : Text} (hl : IsLine l) (r : Text) :
    lines (l ++ .char '\n' :: r) = l :: lines r := by
  induction l with
  | nil => exact lines_newline_cons r
  | cons c l ih =>
      obtain ⟨hc, hl⟩ := isLine_cons.1 hl
      rw [List.cons_append, lines_cons_of_not_isLineBreak hc, ih hl]
      rfl

theorem isLine_of_mem_extendFirst {c : CodePoint} (hc : c.isLineBreak = false) {ls : List Text}
    (h : ∀ l ∈ ls, IsLine l) : ∀ l ∈ extendFirst c ls, IsLine l := by
  cases ls with
  | nil => exact List.forall_mem_singleton.2 (List.forall_mem_singleton.2 hc)
  | cons l ls =>
      obtain ⟨hl, hls⟩ := List.forall_mem_cons.1 h
      exact List.forall_mem_cons.2 ⟨isLine_cons.2 ⟨hc, hl⟩, hls⟩

theorem isLine_of_mem_lines (t : Text) : ∀ l ∈ lines t, IsLine l := by
  have hnil : IsLine [] := nofun
  fun_induction lines t with
  | case1 => nofun
  | case2 r ih => exact List.forall_mem_cons.2 ⟨hnil, ih⟩
  | case3 c r _ _ ih => exact List.forall_mem_cons.2 ⟨hnil, ih⟩
  | case4 c r _ hc ih => exact isLine_of_mem_extendFirst (by simpa using hc) ih

/-- A text that ends in a line feed and a text behind it share no line. -/
theorem lines_append_newline_append (t u : Text) :
    lines (t ++ .char '\n' :: u) = lines (t ++ [.char '\n']) ++ lines u := by
  fun_induction lines t with
  | case1 => simp only [List.nil_append, lines_newline_cons, lines, List.cons_append]
  | case2 r ih => simp only [List.cons_append, lines, ih]
  | case3 c r hr hc ih =>
      by_cases h : c = .char '\r' ∧ r = []
      · obtain ⟨rfl, rfl⟩ := h
        simp [lines]
      · have hstep (v : Text) :
            lines (c :: (r ++ .char '\n' :: v)) = [] :: lines (r ++ .char '\n' :: v) := by
          rw [lines.eq_3 _ _ ?_, if_pos hc]
          rintro v' rfl hv
          cases r with
          | nil => exact h ⟨rfl, rfl⟩
          | cons d r =>
              obtain ⟨rfl, -⟩ := List.cons.inj hv
              exact hr _ rfl rfl
        rw [List.cons_append, List.cons_append, hstep, hstep, ih, List.cons_append]
  | case4 c r hr hc ih =>
      have hc : c.isLineBreak = false := by simpa using hc
      rw [List.cons_append, List.cons_append, lines_cons_of_not_isLineBreak hc,
        lines_cons_of_not_isLineBreak hc, ih, extendFirst_append c (lines_ne_nil (by simp))]

theorem lines_cons_of_isLineBreak {c : CodePoint} (h : c.isLineBreak = true) (t : Text) :
    ∃ rest, (rest = t ∨ t = .char '\n' :: rest) ∧ lines (c :: t) = [] :: lines rest := by
  by_cases hcr : ∃ rest, c = .char '\r' ∧ t = .char '\n' :: rest
  · obtain ⟨rest, rfl, rfl⟩ := hcr
    exact ⟨rest, .inr rfl, lines.eq_2 rest⟩
  · refine ⟨t, .inl rfl, ?_⟩
    rw [lines.eq_3 c t (fun r hc ht => hcr ⟨r, hc, ht⟩), if_pos h]

theorem length_lines_le_cons (c : CodePoint) (t : Text) :
    (lines t).length ≤ (lines (c :: t)).length := by
  cases hc : c.isLineBreak with
  | true =>
      obtain ⟨rest, rfl | rfl, hlines⟩ := lines_cons_of_isLineBreak hc t
      · rw [hlines]
        exact Nat.le_succ _
      · exact Nat.le_of_eq (by rw [hlines, lines_newline_cons])
  | false =>
      rw [lines_cons_of_not_isLineBreak hc]
      cases lines t <;> simp [extendFirst]

theorem length_lines_le_append (t u : Text) : (lines u).length ≤ (lines (t ++ u)).length := by
  induction t with
  | nil => exact Nat.le_refl _
  | cons c t ih => exact Nat.le_trans ih (length_lines_le_cons c (t ++ u))

theorem two_le_length_lines {c d : CodePoint} (hc : c.isLineBreak = true) (t u : Text)
    (hd : d.isLineBreak = false) (v : Text) : 2 ≤ (lines (t ++ c :: (u ++ d :: v))).length := by
  refine Nat.le_trans ?_ (length_lines_le_append t _)
  obtain ⟨rest, hrest, hlines⟩ := lines_cons_of_isLineBreak hc (u ++ d :: v)
  have hne : rest ≠ [] := by
    rintro rfl
    rcases hrest with h | h
    · simp at h
    · have hmem : d ∈ [CodePoint.char '\n'] := h ▸ by simp
      rw [List.mem_singleton.1 hmem] at hd
      exact absurd hd (by decide)
  rw [hlines]
  exact Nat.succ_le_succ (List.length_pos_of_ne_nil (lines_ne_nil hne))

theorem joinWith_cons_cons (l m : Text) (ls : List Text) :
    joinWith "\n" (l :: m :: ls) = l ++ .char '\n' :: joinWith "\n" (m :: ls) := by
  rw [joinWith, List.intercalate_cons_cons, List.append_assoc]
  rfl

theorem lines_joinWith_cons {l : Text} (hl : IsLine l) (hne : l ≠ []) (ls : List Text) :
    lines (joinWith "\n" (l :: ls)) = l :: lines (joinWith "\n" ls) := by
  cases ls with
  | nil =>
      rw [joinWith, List.intercalate_singleton]
      exact lines_of_forall_not_isLineBreak hne hl
  | cons m ls => rw [joinWith_cons_cons, lines_append_newline hl]

theorem lines_joinWith {ls : List Text} (h : ∀ l ∈ ls, IsLine l ∧ l ≠ []) :
    lines (joinWith "\n" ls) = ls := by
  induction ls with
  | nil => rfl
  | cons l ls ih =>
      obtain ⟨⟨hl, hne⟩, hls⟩ := List.forall_mem_cons.1 h
      rw [lines_joinWith_cons hl hne, ih hls]

theorem lines_joinWith_cons_cons {l m : Text} (hl : IsLine l) (hm : IsLine m) (hne : m ≠ [])
    (ls : List Text) :
    lines (joinWith "\n" (l :: m :: ls)) = l :: m :: lines (joinWith "\n" ls) := by
  rw [joinWith_cons_cons, lines_append_newline hl, lines_joinWith_cons hm hne]

theorem not_mem_unifyNewlines (t : Text) : .char '\r' ∉ unifyNewlines t := by
  fun_induction unifyNewlines t with
  | case1 => exact List.not_mem_nil
  | case2 r ih | case3 r _ ih => exact List.not_mem_cons_of_ne_of_not_mem (by decide) ih
  | case4 c r _ hc ih => exact List.not_mem_cons_of_ne_of_not_mem (fun h => hc h.symm) ih

end JsonnetPreview.Text
