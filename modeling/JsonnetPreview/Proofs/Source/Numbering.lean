import JsonnetPreview.Proofs.Text.Lines
import JsonnetPreview.Session.State

namespace JsonnetPreview

def CodePoint.isNewline (c : CodePoint) : Bool := c = .char '\n'

namespace Text

/-- A line stands behind a part of a text, if lines end at certain elements. An element at the very
end of the text ends a line and opens none. -/
structure LineAfter (ends : CodePoint → Bool) (t before line : Text) : Prop where
  split : ∃ after, t = before ++ (line ++ after) ∧
    (after = [] ∧ line ≠ [] ∨ ∃ c r, after = c :: r ∧ ends c = true)
  opens : before = [] ∨ ∃ b c, before = b ++ [c] ∧ ends c = true
  not_ends : ∀ c ∈ line, ends c = false

/-- The line with a number, counted from zero. -/
def IsLineAt (ends : CodePoint → Bool) (t : Text) (k : Int) (line : Text) : Prop :=
  ∃ before, LineAfter ends t before line ∧ before.countP ends = k

variable {ends : CodePoint → Bool}

def cut (ends : CodePoint → Bool) : Text → List Text
  | [] => []
  | c :: r => if ends c then [] :: cut ends r else extendFirst c (cut ends r)

theorem cut_cons_of_ends {c : CodePoint} (h : ends c = true) (r : Text) :
    cut ends (c :: r) = [] :: cut ends r := if_pos h

theorem cut_cons_of_not_ends {c : CodePoint} (h : ends c = false) (r : Text) :
    cut ends (c :: r) = extendFirst c (cut ends r) := if_neg (by simp [h])

theorem extendFirst_ne_nil (c : CodePoint) (ls : List Text) : extendFirst c ls ≠ [] := by
  cases ls <;> exact List.cons_ne_nil _ _

theorem cut_ne_nil {t : Text} (h : t ≠ []) : cut ends t ≠ [] := by
  cases t with
  | nil => exact absurd rfl h
  | cons c t =>
      rw [cut]
      split
      · exact List.cons_ne_nil _ _
      · exact extendFirst_ne_nil c _

theorem cut_append_of_ends (b : Text) {c : CodePoint} (hc : ends c = true) (u : Text) :
    cut ends (b ++ c :: u) = cut ends (b ++ [c]) ++ cut ends u := by
  induction b with
  | nil => rw [List.nil_append, List.nil_append, cut_cons_of_ends hc, cut_cons_of_ends hc]; rfl
  | cons d b ih =>
      rw [List.cons_append, List.cons_append]
      cases hd : ends d with
      | true => rw [cut_cons_of_ends hd, cut_cons_of_ends hd, ih, List.cons_append]
      | false =>
          rw [cut_cons_of_not_ends hd, cut_cons_of_not_ends hd, ih,
            extendFirst_append d (cut_ne_nil (by simp))]

theorem length_cut_of_ends (b : Text) {c : CodePoint} (hc : ends c = true) :
    (cut ends (b ++ [c])).length = (b ++ [c]).countP ends := by
  induction b with
  | nil => simp [cut, hc]
  | cons d b ih =>
      rw [List.cons_append, List.countP_cons]
      cases hd : ends d with
      | true => simp [cut_cons_of_ends hd, ih]
      | false =>
          have hne : cut ends (b ++ [c]) ≠ [] := cut_ne_nil (by simp)
          obtain ⟨l, ls, hls⟩ := List.exists_cons_of_ne_nil hne
          rw [cut_cons_of_not_ends hd, ← ih, hls]
          rfl

theorem cut_of_not_ends {l : Text} (hl : ∀ c ∈ l, ends c = false) (hne : l ≠ []) :
    cut ends l = [l] := by
  induction l with
  | nil => exact absurd rfl hne
  | cons c l ih =>
      obtain ⟨hc, hl⟩ := List.forall_mem_cons.1 hl
      rw [cut_cons_of_not_ends hc]
      cases l with
      | nil => rfl
      | cons d l => rw [ih hl (List.cons_ne_nil _ _)]; rfl

theorem cut_append_cons_of_not_ends {l : Text} (hl : ∀ c ∈ l, ends c = false) {c : CodePoint}
    (hc : ends c = true) (r : Text) : cut ends (l ++ c :: r) = l :: cut ends r := by
  induction l with
  | nil => exact cut_cons_of_ends hc r
  | cons d l ih =>
      obtain ⟨hd, hl⟩ := List.forall_mem_cons.1 hl
      rw [List.cons_append, cut_cons_of_not_ends hd, ih hl]
      rfl

theorem LineAfter.getElem?_cut {t before line : Text} (h : LineAfter ends t before line) :
    (cut ends t)[before.countP ends]? = some line := by
  obtain ⟨⟨after, rfl, hafter⟩, hbefore, hline⟩ := h
  have hfirst : ∃ ls, cut ends (line ++ after) = line :: ls := by
    rcases hafter with ⟨rfl, hne⟩ | ⟨c, r, rfl, hc⟩
    · exact ⟨[], by rw [List.append_nil, cut_of_not_ends hline hne]⟩
    · exact ⟨_, cut_append_cons_of_not_ends hline hc r⟩
  obtain ⟨ls, hls⟩ := hfirst
  rcases hbefore with rfl | ⟨b, c, rfl, hc⟩
  · rw [List.nil_append, hls]
    rfl
  · rw [List.append_assoc, List.singleton_append, cut_append_of_ends b hc, hls,
      ← length_cut_of_ends b hc, List.getElem?_append_right (Nat.le_refl _), Nat.sub_self]
    rfl

theorem LineAfter.eq_nil {t before line : Text} (h : LineAfter ends t before line)
    (hcount : before.countP ends = 0) : before = [] := by
  refine h.opens.resolve_right ?_
  rintro ⟨b, c, rfl, hc⟩
  simp [hc] at hcount

theorem lineAfter_nil {c : CodePoint} (hc : ends c = true) (r : Text) :
    LineAfter ends (c :: r) [] [] :=
  ⟨⟨c :: r, rfl, .inr ⟨c, r, rfl, hc⟩⟩, .inl rfl, nofun⟩

theorem lineAfter_singleton {c : CodePoint} (hc : ends c = false) : LineAfter ends [c] [] [c] :=
  ⟨⟨[], rfl, .inl ⟨rfl, List.cons_ne_nil _ _⟩⟩, .inl rfl, List.forall_mem_singleton.2 hc⟩

theorem LineAfter.cons_of_ends {t before line : Text} (h : LineAfter ends t before line)
    {c : CodePoint} (hc : ends c = true) : LineAfter ends (c :: t) (c :: before) line := by
  obtain ⟨⟨after, rfl, hafter⟩, hopens, hline⟩ := h
  refine ⟨⟨after, rfl, hafter⟩, .inr ?_, hline⟩
  rcases hopens with rfl | ⟨b, d, rfl, hd⟩
  · exact ⟨[], c, rfl, hc⟩
  · exact ⟨c :: b, d, rfl, hd⟩

theorem LineAfter.extend {t line : Text} (h : LineAfter ends t [] line) {c : CodePoint}
    (hc : ends c = false) : LineAfter ends (c :: t) [] (c :: line) := by
  obtain ⟨⟨after, rfl, hafter⟩, hopens, hline⟩ := h
  refine ⟨⟨after, rfl, ?_⟩, hopens, List.forall_mem_cons.2 ⟨hc, hline⟩⟩
  exact hafter.imp_left fun h => ⟨h.1, List.cons_ne_nil _ _⟩

theorem LineAfter.cons {t before line : Text} (h : LineAfter ends t before line)
    (hbefore : before ≠ []) (c : CodePoint) : LineAfter ends (c :: t) (c :: before) line := by
  obtain ⟨⟨after, rfl, hafter⟩, hopens, hline⟩ := h
  obtain ⟨b, d, rfl, hd⟩ := hopens.resolve_left hbefore
  exact ⟨⟨after, rfl, hafter⟩, .inr ⟨c :: b, d, rfl, hd⟩, hline⟩

theorem lineAfter_of_getElem?_cut {t line : Text} {k : Nat} (h : (cut ends t)[k]? = some line) :
    ∃ before, LineAfter ends t before line ∧ before.countP ends = k := by
  induction t generalizing k line with
  | nil => cases h
  | cons c r ih =>
      cases hc : ends c with
      | true =>
          rw [cut_cons_of_ends hc] at h
          cases k with
          | zero =>
              cases h
              exact ⟨[], lineAfter_nil hc r, rfl⟩
          | succ k =>
              obtain ⟨before, hbefore, rfl⟩ := ih h
              exact ⟨c :: before, hbefore.cons_of_ends hc, by simp [hc]⟩
      | false =>
          -- The element belongs to the first line of what follows it, if there is one.
          rw [cut_cons_of_not_ends hc] at h
          cases hr : cut ends r with
          | nil =>
              obtain rfl : r = [] := by_contra fun hne => cut_ne_nil hne hr
              rw [hr] at h
              obtain ⟨rfl, rfl⟩ : k = 0 ∧ [c] = line := by
                cases k with
                | zero => exact ⟨rfl, Option.some.inj h⟩
                | succ k => cases h
              exact ⟨[], lineAfter_singleton hc, rfl⟩
          | cons first rest =>
              rw [hr] at h
              cases k with
              | zero =>
                  obtain rfl : c :: first = line := Option.some.inj h
                  obtain ⟨before, hfirst, hcount⟩ := ih (k := 0) (by rw [hr]; rfl)
                  obtain rfl := hfirst.eq_nil hcount
                  exact ⟨[], hfirst.extend hc, rfl⟩
              | succ k =>
                  obtain ⟨before, hbefore, hcount⟩ := ih (k := k + 1) (by rw [hr]; exact h)
                  have hne : before ≠ [] := by
                    rintro rfl
                    cases hcount
                  exact ⟨c :: before, hbefore.cons hne c, by simp [hc, hcount]⟩

theorem isLineAt_iff {t line : Text} {k : Nat} :
    IsLineAt ends t k line ↔ (cut ends t)[k]? = some line := by
  constructor
  · rintro ⟨before, h, hk⟩
    rw [← Int.ofNat_inj.1 hk]
    exact h.getElem?_cut
  · intro h
    obtain ⟨before, hbefore, hk⟩ := lineAfter_of_getElem?_cut h
    exact ⟨before, hbefore, congrArg _ hk⟩

theorem not_isLineAt_negSucc {t line : Text} {n : Nat} :
    ¬ IsLineAt ends t (Int.negSucc n) line := by
  rintro ⟨before, -, hk⟩
  cases hk

theorem isLineAt_congr {q : CodePoint → Bool} {t : Text} (h : cut ends t = cut q t) {k : Int}
    {line : Text} : IsLineAt ends t k line ↔ IsLineAt q t k line := by
  cases k with
  | ofNat n => exact isLineAt_iff.trans (h ▸ isLineAt_iff.symm)
  | negSucc n => exact iff_of_false not_isLineAt_negSucc not_isLineAt_negSucc

theorem cut_congr {q : CodePoint → Bool} {t : Text} (h : ∀ c ∈ t, ends c = q c) :
    cut ends t = cut q t := by
  induction t with
  | nil => rfl
  | cons c t ih =>
      obtain ⟨hc, ht⟩ := List.forall_mem_cons.1 h
      rw [cut, cut, hc, ih ht]

theorem not_ends_of_mem_cut {t line : Text} (h : line ∈ cut ends t) :
    ∀ c ∈ line, ends c = false := by
  obtain ⟨k, hk⟩ := List.mem_iff_getElem?.1 h
  obtain ⟨before, hbefore, -⟩ := lineAfter_of_getElem?_cut hk
  exact hbefore.not_ends

theorem exists_mem_cut {t : Text} {c : CodePoint} (hmem : c ∈ t) (hc : ends c = false) :
    ∃ line ∈ cut ends t, c ∈ line := by
  obtain ⟨b, r, rfl⟩ := List.append_of_mem hmem
  induction b with
  | nil =>
      rw [List.nil_append, cut_cons_of_not_ends hc]
      cases cut ends r with
      | nil => exact ⟨[c], List.mem_cons_self, List.mem_cons_self⟩
      | cons l ls => exact ⟨c :: l, List.mem_cons_self, List.mem_cons_self⟩
  | cons d b ih =>
      obtain ⟨line, hline, hc⟩ := ih (by simp)
      cases hd : ends d with
      | true =>
          rw [List.cons_append, cut_cons_of_ends hd]
          exact ⟨line, List.mem_cons_of_mem _ hline, hc⟩
      | false =>
          rw [List.cons_append, cut_cons_of_not_ends hd]
          obtain ⟨first, rest, hrest⟩ := List.exists_cons_of_ne_nil (List.ne_nil_of_mem hline)
          rw [hrest] at hline ⊢
          rcases List.mem_cons.1 hline with rfl | hline
          · exact ⟨d :: line, List.mem_cons_self, List.mem_cons_of_mem _ hc⟩
          · exact ⟨line, List.mem_cons_of_mem _ hline, hc⟩

/-- Where some elements are no ends of lines any more, a text is cut alike only if it has none of
them. -/
theorem cut_eq_cut_iff {q : CodePoint → Bool} (hq : ∀ c, q c = true → ends c = true) (t : Text) :
    cut ends t = cut q t ↔ ∀ c ∈ t, ends c = true → q c = true := by
  constructor
  · intro heq c hmem hc
    by_contra hne
    obtain ⟨line, hline, hcline⟩ := exists_mem_cut hmem (Bool.eq_false_iff.2 hne)
    rw [← heq] at hline
    rw [not_ends_of_mem_cut hline c hcline] at hc
    cases hc
  · intro h
    exact cut_congr fun c hmem => Bool.eq_iff_iff.2 ⟨h c hmem, hq c⟩

theorem lines_eq_cut {t : Text} (h : .char '\r' ∉ t) : lines t = cut CodePoint.isLineBreak t := by
  induction t with
  | nil => rfl
  | cons c t ih =>
      have ht : .char '\r' ∉ t := fun hmem => h (List.mem_cons_of_mem _ hmem)
      rw [lines.eq_3 c t fun r hc _ => h (hc ▸ List.mem_cons_self), cut, ih ht]

def HasOnlyNewlines (t : Text) : Prop := ∀ c ∈ t, c.isLineBreak = true → c.isNewline = true

theorem isLineBreak_of_isNewline {c : CodePoint} (h : c.isNewline = true) :
    c.isLineBreak = true := by
  obtain rfl : c = .char '\n' := by simpa [CodePoint.isNewline] using h
  decide

theorem LineAfter.of_hasOnlyNewlines {t before line : Text}
    (h : LineAfter CodePoint.isNewline t before line) (honly : HasOnlyNewlines (before ++ line)) :
    LineAfter CodePoint.isLineBreak t before line := by
  obtain ⟨⟨after, ht, hafter⟩, hopens, hline⟩ := h
  refine ⟨⟨after, ht, ?_⟩, ?_, ?_⟩
  · exact hafter.imp_right fun ⟨c, r, h, hc⟩ => ⟨c, r, h, isLineBreak_of_isNewline hc⟩
  · exact hopens.imp_right fun ⟨b, c, h, hc⟩ => ⟨b, c, h, isLineBreak_of_isNewline hc⟩
  · intro c hmem
    refine Bool.eq_false_iff.2 fun hc => ?_
    have hnewline := honly c (List.mem_append_right _ hmem) hc
    rw [hline c hmem] at hnewline
    cases hnewline

theorem countP_of_hasOnlyNewlines {t : Text} (h : HasOnlyNewlines t) :
    t.countP CodePoint.isLineBreak = t.countP CodePoint.isNewline :=
  List.countP_congr fun c hmem => ⟨h c hmem, isLineBreak_of_isNewline⟩

end Text

open Report Text

namespace DocumentState

/-- A line that is looked up by a number is the one that the compiler gives this number. -/
def CountsLikeCompiler (d : DocumentState) : Prop :=
  ∀ k line, d.line? k = some line ↔ IsLineAt CodePoint.isNewline d.source k line

/-- The line at which a diagnostic is shown is the one that the compiler means. -/
def LocatesLikeCompiler (d : DocumentState) : Prop :=
  ∀ (r : LocationRange) (line : Text), d.line? r.toRange.start.line = some line ↔
    IsLineAt CodePoint.isNewline d.source ((r.first.line : Int) - 1) line

variable (d : DocumentState) {source : Text}

theorem line?_withSource_iff (h : .char '\r' ∉ source) (k : Int) (line : Text) :
    (d.withSource source).line? k = some line ↔ IsLineAt CodePoint.isLineBreak source k line := by
  cases k with
  | ofNat n => exact (isLineAt_iff.trans (by rw [← lines_eq_cut h]; rfl)).symm
  | negSucc n => exact ⟨nofun, fun h => absurd h not_isLineAt_negSucc⟩

theorem countsLikeCompiler_iff (h : .char '\r' ∉ source) :
    (d.withSource source).CountsLikeCompiler ↔ HasOnlyNewlines source := by
  rw [HasOnlyNewlines, ← cut_eq_cut_iff fun _ => isLineBreak_of_isNewline]
  constructor
  · intro hcounts
    refine List.ext_getElem? fun k => Option.ext fun line => ?_
    rw [← isLineAt_iff, ← isLineAt_iff, ← line?_withSource_iff d h]
    exact hcounts k line
  · intro heq k line
    rw [line?_withSource_iff d h, isLineAt_congr heq]
    rfl

theorem locatesLikeCompiler_iff : d.LocatesLikeCompiler ↔ d.CountsLikeCompiler := by
  constructor
  · intro hlocates k line
    cases k with
    | ofNat n =>
        have hn : ((n + 1 : Nat) : Int) - 1 = Int.ofNat n := by simp
        rw [← hn]
        exact hlocates ⟨⟨n + 1, 1⟩, ⟨n + 1, 1⟩⟩ line
    | negSucc n => exact ⟨nofun, fun h => absurd h not_isLineAt_negSucc⟩
  · exact fun hcounts r line => hcounts _ line

theorem line?_of_lineAfter (h : .char '\r' ∉ source) {before line : Text}
    (hline : LineAfter CodePoint.isNewline source before line)
    (honly : HasOnlyNewlines (before ++ line)) :
    (d.withSource source).line? (before.countP CodePoint.isNewline) = some line := by
  rw [line?_withSource_iff d h, ← countP_of_hasOnlyNewlines]
  · exact ⟨before, hline.of_hasOnlyNewlines honly, rfl⟩
  · exact fun c hmem => honly c (List.mem_append_left _ hmem)

/-- A source is cut at every line break, and the compiler numbers its lines by line feeds. The two
agree up to the first line break of another kind, and on all of a source only if it has none. -/
theorem line?_withSource (t : Text) :
    (∀ k line, (d.withSource t.unifyNewlines).line? k = some line ↔
      IsLineAt CodePoint.isLineBreak t.unifyNewlines k line) ∧
    (∀ before line, LineAfter CodePoint.isNewline t.unifyNewlines before line →
      HasOnlyNewlines (before ++ line) →
      (d.withSource t.unifyNewlines).line? (before.countP CodePoint.isNewline) = some line) ∧
    ((d.withSource t.unifyNewlines).CountsLikeCompiler ↔ HasOnlyNewlines t.unifyNewlines) ∧
    ((d.withSource t.unifyNewlines).LocatesLikeCompiler ↔ HasOnlyNewlines t.unifyNewlines) := by
  have h := not_mem_unifyNewlines t
  exact ⟨line?_withSource_iff d h, fun _ _ => line?_of_lineAfter d h, countsLikeCompiler_iff d h,
    (locatesLikeCompiler_iff _).trans (countsLikeCompiler_iff d h)⟩

def separated : Text := .ofString "local a = 'x\u2028y';\nerror a\n"

theorem not_countsLikeCompiler_separated :
    (DocumentState.withSource {} separated.unifyNewlines).line? 1 = some (.ofString "y';") ∧
    IsLineAt CodePoint.isNewline separated.unifyNewlines 1 (.ofString "error a") ∧
    ¬ (DocumentState.withSource {} separated.unifyNewlines).CountsLikeCompiler ∧
    ¬ (DocumentState.withSource {} separated.unifyNewlines).LocatesLikeCompiler := by
  have hline : (DocumentState.withSource {} separated.unifyNewlines).line? 1 =
      some (.ofString "y';") := by decide +kernel
  have hcompiler : IsLineAt CodePoint.isNewline separated.unifyNewlines 1
      (.ofString "error a") := isLineAt_iff (k := 1).2 (by decide +kernel)
  have hcounts : ¬ (DocumentState.withSource {} separated.unifyNewlines).CountsLikeCompiler := by
    intro h
    have hsame := ((h 1 _).2 hcompiler).symm.trans hline
    exact absurd hsame (by decide +kernel)
  exact ⟨hline, hcompiler, hcounts, fun h => hcounts ((locatesLikeCompiler_iff _).1 h)⟩

end DocumentState
end JsonnetPreview
