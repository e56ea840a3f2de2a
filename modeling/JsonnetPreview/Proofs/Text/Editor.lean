import JsonnetPreview.Proofs.Source.Numbering
import JsonnetPreview.Proofs.Stream.Lines
import JsonnetPreview.Text.Lines

namespace JsonnetPreview.Text

theorem lineEnd_of_not_mem {t : Text} (h : .char '\r' ∉ t) : lineEnd t = "\n" := by
  have hwide : hasWideBreak t = false := by
    fun_induction hasWideBreak t with
    | case1 r => exact absurd List.mem_cons_self h
    | case2 c r _ ih => exact ih fun hmem => h (List.mem_cons_of_mem _ hmem)
    | case3 => rfl
  have hcontains : t.contains (.char '\r') = false := by simpa using h
  rw [lineEnd, hwide, hcontains]
  simp

theorem editorLines_of_getLast? {t : Text} {d : CodePoint} (h : t.getLast? = some d) :
    editorLines t = lines t ++ if d = .char '\n' ∨ d = .char '\r' then [[]] else [] := by
  rw [editorLines, h]
  split
  case h_1 heq => cases heq
  case h_2 heq | h_3 heq =>
    obtain rfl := Option.some.inj heq
    rfl
  case h_4 hnewline hreturn =>
    have hd : ¬(d = .char '\n' ∨ d = .char '\r') := by
      rintro (rfl | rfl)
      · exact hnewline rfl
      · exact hreturn rfl
    rw [if_neg hd, List.append_nil]

theorem editorLines_cons {c : CodePoint} {t : Text} (hc : c ≠ .char '\r') (ht : t ≠ []) :
    editorLines (c :: t) =
      if c.isLineBreak then [] :: editorLines t else extendFirst c (editorLines t) := by
  have hlast : t.getLast? = some (t.getLast ht) := List.getLast?_eq_some_getLast ht
  have hlast' : (c :: t).getLast? = some (t.getLast ht) := by
    rw [List.getLast?_cons, hlast]
    rfl
  rw [editorLines_of_getLast? hlast, editorLines_of_getLast? hlast',
    lines.eq_3 c t fun r hr _ => hc hr, extendFirst_append c (lines_ne_nil ht)]
  cases c.isLineBreak <;> rfl

theorem not_mem_of_hasOnlyNewlines {t : Text} (h : HasOnlyNewlines t) : .char '\r' ∉ t :=
  fun hmem => absurd (h _ hmem (by decide)) (by decide)

theorem splitLines_cons_of_ne {c : CodePoint} (hc : c ≠ .char '\n') (t : Text) :
    Stream.splitLines (c :: t) = extendFirst c (Stream.splitLines t) := by
  rw [Stream.splitLines, if_neg hc]
  cases Stream.splitLines t <;> rfl

theorem editorLines_eq_splitLines {t : Text} (h : HasOnlyNewlines t) :
    editorLines t = Stream.splitLines t := by
  induction t with
  | nil => rfl
  | cons c t ih =>
      have hreturn : c ≠ .char '\r' := fun hc =>
        not_mem_of_hasOnlyNewlines h (hc ▸ List.mem_cons_self)
      obtain ⟨hc, ht⟩ := List.forall_mem_cons.1 h
      by_cases hnewline : c = .char '\n'
      · subst hnewline
        cases t with
        | nil => rfl
        | cons d t =>
            rw [editorLines_cons hreturn (List.cons_ne_nil _ _), ih ht]
            rfl
      · have hbreak : c.isLineBreak = false := by
          refine Bool.eq_false_iff.2 fun hbreak => hnewline ?_
          simpa [CodePoint.isNewline] using hc hbreak
        rw [splitLines_cons_of_ne hnewline]
        cases t with
        | nil =>
            have hlast : [c].getLast? = some c := rfl
            rw [editorLines_of_getLast? hlast, if_neg (not_or.2 ⟨hnewline, hreturn⟩),
              lines_cons_of_not_isLineBreak hbreak]
            rfl
        | cons d t => rw [editorLines_cons hreturn (List.cons_ne_nil _ _), hbreak, ih ht]; rfl

theorem exists_mem_of_mem_joinWith {c : CodePoint} {ls : List Text} (h : c ∈ joinWith "\n" ls)
    (hc : c ≠ .char '\n') : ∃ l ∈ ls, c ∈ l := by
  induction ls with
  | nil => cases h
  | cons l ls ih =>
      cases ls with
      | nil => exact ⟨l, List.mem_cons_self, by rwa [joinWith, List.intercalate_singleton] at h⟩
      | cons m ls =>
          rw [joinWith_cons_cons, List.mem_append, List.mem_cons, or_iff_right hc] at h
          rcases h with hl | hls
          · exact ⟨l, List.mem_cons_self, hl⟩
          · obtain ⟨l', hl', hcl⟩ := ih hls
            exact ⟨l', List.mem_cons_of_mem _ hl', hcl⟩

theorem mem_lines_or_eq_nil {t line : Text} (h : line ∈ editorLines t) :
    line ∈ lines t ∨ line = [] := by
  rw [editorLines] at h
  split at h
  case h_4 => exact .inl h
  all_goals exact (List.mem_append.1 h).imp_right List.mem_singleton.1

/-- Without carriage returns, a text comes back as it is if it has no line break but line feeds. -/
theorem throughEditor_eq_self_iff {t : Text} (h : .char '\r' ∉ t) :
    throughEditor t = t ↔ HasOnlyNewlines t := by
  rw [throughEditor, lineEnd_of_not_mem h]
  constructor
  · intro heq c hmem hc
    by_contra hne
    rw [← heq] at hmem
    obtain ⟨l, hl, hcl⟩ := exists_mem_of_mem_joinWith hmem fun hc => hne (by rw [hc]; decide)
    rcases mem_lines_or_eq_nil hl with hl | rfl
    · rw [lines_eq_cut h] at hl
      rw [not_ends_of_mem_cut hl c hcl] at hc
      cases hc
    · cases hcl
  · intro honly
    rw [editorLines_eq_splitLines honly, Stream.joinWith_splitLines]

end JsonnetPreview.Text
