import JsonnetPreview.Proofs.Text.Lines
import Mathlib.Data.List.DropRight

namespace JsonnetPreview.Text

def IsBlank (t : Text) : Prop := ∀ c ∈ t, c.isBlank

theorem exists_trimStart (t : Text) : ∃ b, IsBlank b ∧ t = b ++ trimStart t :=
  ⟨_, List.all_eq_true.1 List.all_takeWhile, List.takeWhile_append_dropWhile.symm⟩

theorem trimStart_append {b : Text} (hb : IsBlank b) (t : Text) :
    trimStart (b ++ t) = trimStart t := List.dropWhile_append_of_pos hb

theorem trimStart_of_head {t : Text} (h : ∀ c ∈ t.head?, c.isBlank = false) : trimStart t = t := by
  cases t with
  | nil => rfl
  | cons c t => exact trimStart_cons_of_not_isBlank (h c rfl)

theorem not_isBlank_head_trimStart (t : Text) : ∀ c ∈ (trimStart t).head?, c.isBlank = false := by
  intro c hc
  have hhead := List.head?_dropWhile_not CodePoint.isBlank t
  rw [← trimStart, hc] at hhead
  simpa using hhead

theorem exists_trimEnd (t : Text) : ∃ b, IsBlank b ∧ t = trimEnd t ++ b := by
  obtain ⟨b, hb, h⟩ := exists_trimStart t.reverse
  refine ⟨b.reverse, fun c hc => hb c (List.mem_reverse.1 hc), ?_⟩
  rw [trimEnd, ← List.reverse_append, ← trimStart, ← h, List.reverse_reverse]

theorem exists_trim (t : Text) :
    ∃ b b', IsBlank b ∧ IsBlank b' ∧ t = b ++ (trim t ++ b') := by
  obtain ⟨b, hb, h⟩ := exists_trimStart t
  obtain ⟨b', hb', h'⟩ := exists_trimEnd (trimStart t)
  exact ⟨b, b', hb, hb', by rw [trim, ← h', ← h]⟩

theorem trim_subset (t : Text) : trim t ⊆ t := by
  obtain ⟨b, b', -, -, ht⟩ := exists_trim t
  intro c hc
  rw [ht]
  exact List.mem_append_right _ (List.mem_append_left _ hc)

theorem trim_of_forall_not_isBlank {t : Text} (h : ∀ c ∈ t, c.isBlank = false) : trim t = t := by
  have hstart {u : Text} (hu : ∀ c ∈ u, c.isBlank = false) : trimStart u = u :=
    trimStart_of_head fun c hc => hu c (List.mem_of_mem_head? hc)
  have hend : trimStart t.reverse = t.reverse := hstart fun c hc => h c (List.mem_reverse.1 hc)
  rw [trim, hstart h, trimEnd, ← trimStart, hend, List.reverse_reverse]

theorem trimEnd_append_of_isBlank {c : CodePoint} (hc : c.isBlank) (t : Text) :
    trimEnd (t ++ [c]) = trimEnd t := by
  simp [trimEnd, hc]

theorem not_isBlank_of_trim_eq_cons {c : CodePoint} {t r : Text} (h : trim t = c :: r) :
    c.isBlank = false := by
  obtain ⟨b, hb, ht⟩ := exists_trimEnd (trimStart t)
  rw [← trim, h] at ht
  have hc := List.head?_dropWhile_not CodePoint.isBlank t
  rw [← trimStart, ht] at hc
  simpa using hc

/-- What is not all blank keeps what stands in front of it from being trimmed. -/
theorem trimEnd_append {u : Text} (h : ¬ IsBlank u) (t : Text) :
    trimEnd (t ++ u) = t ++ trimEnd u := by
  have hne : (u.reverse.dropWhile CodePoint.isBlank).isEmpty = false := by
    rw [List.isEmpty_eq_false_iff]
    exact fun hnil => h (List.rdropWhile_eq_nil_iff.1 (congrArg List.reverse hnil))
  rw [trimEnd, List.reverse_append, List.dropWhile_append, hne]
  simp [trimEnd]

def trimLast : List Text → List Text
  | [] => []
  | [l] => [trimEnd l]
  | l :: m :: ls => l :: trimLast (m :: ls)

theorem exists_trimLast_cons (l : Text) (ls : List Text) :
    ∃ l' ls', trimLast (l :: ls) = l' :: ls' := by
  cases ls <;> exact ⟨_, _, rfl⟩

theorem trimEnd_joinWith {ls : List Text} (h : ∀ l ∈ ls.tail, ¬ IsBlank l) :
    trimEnd (joinWith "\n" ls) = joinWith "\n" (trimLast ls) := by
  induction ls with
  | nil => rfl
  | cons l ls ih =>
      cases ls with
      | nil => simp [joinWith, trimLast]
      | cons m ls =>
          obtain ⟨hm, hls⟩ := List.forall_mem_cons.1 h
          have hrest : ¬ IsBlank (joinWith "\n" (m :: ls)) := by
            cases ls with
            | nil => simpa [joinWith] using hm
            | cons n ls =>
                rw [joinWith_cons_cons]
                exact fun hall => hm fun c hc => hall c (List.mem_append_left _ hc)
          have hbreak : ¬ IsBlank (.char '\n' :: joinWith "\n" (m :: ls)) :=
            fun hall => hrest fun c hc => hall c (List.mem_cons_of_mem _ hc)
          obtain ⟨m', ls', hlast⟩ := exists_trimLast_cons m ls
          rw [joinWith_cons_cons, trimEnd_append hbreak, ← List.singleton_append,
            trimEnd_append hrest, ih hls, trimLast, hlast, joinWith_cons_cons]
          rfl

theorem map_head?_trimLast {ls : List Text} (h : ∀ l ∈ ls, (trimEnd l).head? = l.head?) :
    (trimLast ls).map List.head? = ls.map List.head? := by
  fun_induction trimLast ls with
  | case1 => rfl
  | case2 l => rw [List.map_singleton, List.map_singleton, h l (List.mem_singleton_self l)]
  | case3 l m ls ih => rw [List.map_cons, List.map_cons, ih (List.forall_mem_cons.1 h).2]

theorem forall_mem_trimLast {p : Text → Prop} {ls : List Text}
    (h : ∀ l ∈ ls, p l ∧ p (trimEnd l)) : ∀ l ∈ trimLast ls, p l := by
  fun_induction trimLast ls with
  | case1 => nofun
  | case2 l => exact List.forall_mem_singleton.2 (h l (List.mem_singleton_self l)).2
  | case3 l m ls ih =>
      obtain ⟨hl, hls⟩ := List.forall_mem_cons.1 h
      exact List.forall_mem_cons.2 ⟨hl.1, ih hls⟩

theorem IsLine.trimEnd {t : Text} (h : IsLine t) : IsLine (trimEnd t) := by
  obtain ⟨b, -, hb⟩ := exists_trimEnd t
  exact (isLine_append.1 (hb ▸ h)).1

theorem lines_trimEnd_joinWith {l : Text} {ls : List Text} (hl : IsLine l)
    (hls : ∀ m ∈ ls, IsLine m ∧ ¬ IsBlank m) :
    (lines (trimEnd (joinWith "\n" (l :: ls)))).drop 1 = trimLast ls := by
  have htail : ∀ m ∈ (l :: ls).tail, ¬ IsBlank m := fun m hm => (hls m hm).2
  rw [trimEnd_joinWith htail]
  cases ls with
  | nil =>
      have hlast : trimLast [l] = [Text.trimEnd l] := rfl
      rw [hlast, joinWith, List.intercalate_singleton]
      by_cases hnil : Text.trimEnd l = []
      · rw [hnil]
        rfl
      · rw [lines_of_forall_not_isLineBreak hnil hl.trimEnd]
        rfl
  | cons m ls =>
      obtain ⟨m', ls', hlast⟩ := exists_trimLast_cons m ls
      have hlines : ∀ n ∈ trimLast (m :: ls), IsLine n ∧ n ≠ [] := by
        refine forall_mem_trimLast (p := fun n => IsLine n ∧ n ≠ []) fun m hm => ?_
        obtain ⟨hm, hblank⟩ := hls m hm
        have hend : Text.trimEnd m ≠ [] := fun hnil => hblank (List.rdropWhile_eq_nil_iff.1 hnil)
        exact ⟨⟨hm, fun hnil => hblank (hnil ▸ List.forall_mem_nil _)⟩, hm.trimEnd, hend⟩
      rw [trimLast, hlast, joinWith_cons_cons, ← hlast, lines_append_newline hl,
        lines_joinWith hlines]
      rfl

end JsonnetPreview.Text
