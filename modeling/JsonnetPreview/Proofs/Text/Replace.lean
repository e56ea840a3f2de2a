import JsonnetPreview.Config.Settings
import Mathlib.Data.List.Infix

namespace JsonnetPreview

namespace Text

/-- A text with `new` in the place of each `old`. What stands before an occurrence ends where the
first occurrence begins. -/
inductive Replaced (old new : Text) : Text → Text → Prop
  | last (piece : Text) (h : ¬old <:+: piece) : Replaced old new piece piece
  | next (piece t t' : Text) (h : ¬old <:+: piece ++ old.dropLast) (ht : Replaced old new t t') :
      Replaced old new (piece ++ (old ++ t)) (piece ++ (new ++ t'))

variable {old new : Text}

theorem not_infix_dropLast (h : old ≠ []) : ¬old <:+: old.dropLast := by
  intro hwithin
  have hle := hwithin.length_le
  rw [List.length_dropLast] at hle
  have hpos : 0 < old.length := List.length_pos_iff.2 h
  omega

theorem Replaced.cons {c : CodePoint} {t t' : Text} (ht : Replaced old new t t')
    (h : ¬old <+: c :: t) : Replaced old new (c :: t) (c :: t') := by
  cases ht with
  | last _ hpiece =>
      refine .last _ fun hwithin => ?_
      exact (List.infix_cons_iff.1 hwithin).elim h hpiece
  | next piece t t' hpiece ht =>
      refine .next (c :: piece) t t' (fun hwithin => ?_) ht
      rcases List.infix_cons_iff.1 hwithin with hbegins | hwithin
      · refine h (hbegins.trans ?_)
        have hdrop : piece ++ old.dropLast <+: piece ++ (old ++ t) :=
          (List.prefix_append_right_inj _).2 ((List.dropLast_prefix _).trans (List.prefix_append _ _))
        exact List.cons_prefix_cons.2 ⟨rfl, hdrop⟩
      · exact hpiece hwithin

theorem length_le_of_first {before before' t t' : Text} (h : ¬old <:+: before ++ old.dropLast)
    (heq : before ++ (old ++ t) = before' ++ (old ++ t')) : before.length ≤ before'.length := by
  by_contra hlt
  have hlength : (before' ++ old).length ≤ (before ++ old.dropLast).length := by
    simp only [List.length_append, List.length_dropLast]
    omega
  have hfirst : before ++ old.dropLast <+: before ++ (old ++ t) :=
    (List.prefix_append_right_inj _).2 ((List.dropLast_prefix _).trans (List.prefix_append _ _))
  have hother : before' ++ old <+: before ++ (old ++ t) := by
    rw [heq, ← List.append_assoc]
    exact List.prefix_append _ _
  have hbegins := List.prefix_of_prefix_length_le hother hfirst hlength
  exact h ((List.suffix_append before' old).isInfix.trans hbegins.isInfix)

theorem infix_append_append (before old t : Text) : old <:+: before ++ (old ++ t) :=
  (List.prefix_append old t).isInfix.trans (List.suffix_append before _).isInfix

theorem Replaced.unique {t a b : Text} (ha : Replaced old new t a) (hb : Replaced old new t b) :
    a = b := by
  induction ha generalizing b with
  | last piece h =>
      cases hb with
      | last => rfl
      | next before t => exact absurd (infix_append_append before old t) h
  | next before t a h _ ih =>
      generalize heq : before ++ (old ++ t) = whole at hb
      cases hb with
      | last _ h' => exact absurd (heq ▸ infix_append_append before old t) h'
      | next before' t' b h' hb =>
          have hlength : before.length = before'.length :=
            Nat.le_antisymm (length_le_of_first h heq) (length_le_of_first h' heq.symm)
          obtain ⟨rfl, hrest⟩ := List.append_inj heq hlength
          obtain rfl := List.append_cancel_left hrest
          rw [ih hb]

end Text

namespace Config

open Text

variable {old new : Text}

theorem replaceFrom_skip (old new : Text) (n : Nat) (t : Text) :
    replaceFrom old new n t = replaceFrom old new 0 (t.drop n) := by
  induction t generalizing n with
  | nil => rw [List.drop_nil]; rfl
  | cons c r ih =>
      cases n with
      | zero => rfl
      | succ n => exact ih n

theorem replaceFrom_of_occurs (h : old ≠ []) (rest : Text) :
    replaceFrom old new 0 (old ++ rest) = new ++ replaceFrom old new 0 rest := by
  obtain ⟨c, r, rfl⟩ := List.exists_cons_of_ne_nil h
  have hbegins : (c :: r).isPrefixOf (c :: (r ++ rest)) = true :=
    List.isPrefixOf_iff_prefix.2 (List.prefix_append (c :: r) rest)
  rw [List.cons_append, replaceFrom, if_pos hbegins, replaceFrom_skip, List.length_cons,
    Nat.add_sub_cancel, List.drop_left]

theorem replaceFrom_of_not_occurs {c : CodePoint} {r : Text} (h : ¬old <+: c :: r) :
    replaceFrom old new 0 (c :: r) = c :: replaceFrom old new 0 r := by
  rw [replaceFrom, if_neg (mt List.isPrefixOf_iff_prefix.1 h)]

theorem replaced_replaceFrom (h : old ≠ []) (new t : Text) :
    Replaced old new t (replaceFrom old new 0 t) := by
  induction hn : t.length using Nat.strong_induction_on generalizing t with
  | _ n ih =>
      subst hn
      cases t with
      | nil => exact .last [] fun hwithin => h (List.eq_nil_of_infix_nil hwithin)
      | cons c r =>
          by_cases hbegins : old <+: c :: r
          · obtain ⟨rest, hrest⟩ := hbegins
            have hlength : rest.length < (c :: r).length := by
              rw [← hrest, List.length_append]
              exact Nat.lt_add_of_pos_left (List.length_pos_iff.2 h)
            rw [← hrest, replaceFrom_of_occurs h]
            exact .next [] rest _ (not_infix_dropLast h) (ih _ hlength rest rfl)
          · rw [replaceFrom_of_not_occurs hbegins]
            exact (ih _ (Nat.lt_succ_self _) r rfl).cons hbegins

theorem replaceFrom_eq_iff (h : old ≠ []) {t t' : Text} :
    replaceFrom old new 0 t = t' ↔ Replaced old new t t' := by
  constructor
  · rintro rfl
    exact replaced_replaceFrom h new t
  · exact (replaced_replaceFrom h new t).unique

end Config

end JsonnetPreview
