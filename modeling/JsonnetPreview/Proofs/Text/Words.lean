import JsonnetPreview.Text.Blank
import Mathlib.Data.List.Basic

namespace JsonnetPreview.Text

def IsSolid (t : Text) : Prop := ∀ c ∈ t, c.isBlank = false

structure IsWord (t : Text) : Prop where
  ne_nil : t ≠ []
  isSolid : IsSolid t

instance : DecidablePred IsSolid := fun t =>
  inferInstanceAs (Decidable (∀ c ∈ t, c.isBlank = false))

theorem isSolid_append {t u : Text} : IsSolid (t ++ u) ↔ IsSolid t ∧ IsSolid u := by
  simp only [IsSolid, List.mem_append, or_imp, forall_and]

theorem isSolid_cons {c : CodePoint} {t : Text} :
    IsSolid (c :: t) ↔ c.isBlank = false ∧ IsSolid t := by
  simp only [IsSolid, List.forall_mem_cons]

theorem wordsFrom_cons (c : CodePoint) (t : Text) :
    wordsFrom (c :: t) =
      if c.isBlank then ([], words t) else (c :: (wordsFrom t).1, (wordsFrom t).2) :=
  rfl

theorem words_eq (t : Text) :
    words t =
      if (wordsFrom t).1.isEmpty then (wordsFrom t).2 else (wordsFrom t).1 :: (wordsFrom t).2 :=
  rfl

theorem wordsFrom_append {w : Text} (h : IsSolid w) (t : Text) :
    wordsFrom (w ++ t) = (w ++ (wordsFrom t).1, (wordsFrom t).2) := by
  induction w with
  | nil => rfl
  | cons c w ih =>
      obtain ⟨hc, hw⟩ := isSolid_cons.1 h
      rw [List.cons_append, wordsFrom_cons, ih hw, if_neg (by simp [hc])]
      rfl

theorem words_append {w : Text} (h : IsWord w) {t : Text} (ht : (wordsFrom t).1 = []) :
    words (w ++ t) = w :: (wordsFrom t).2 := by
  rw [words_eq, wordsFrom_append h.isSolid, ht, List.append_nil]
  exact if_neg (by simp [h.ne_nil])

theorem words_joinWith {ws : List Text} (h : ∀ w ∈ ws, IsWord w) :
    words (joinWith " " ws) = ws := by
  induction ws with
  | nil => rfl
  | cons w ws ih =>
      obtain ⟨hw, hws⟩ := List.forall_mem_cons.1 h
      cases ws with
      | nil =>
          have hsingle := words_append hw (t := []) rfl
          rw [List.append_nil] at hsingle
          rw [joinWith, List.intercalate_singleton, hsingle]
          rfl
      | cons v ws =>
          have hblank : CodePoint.isBlank (.char ' ') = true := by decide
          have hjoin : joinWith " " (w :: v :: ws) = w ++ .char ' ' :: joinWith " " (v :: ws) := by
            rw [joinWith, List.intercalate_cons_cons, List.append_assoc]
            rfl
          have hspace : wordsFrom (.char ' ' :: joinWith " " (v :: ws)) = ([], v :: ws) := by
            rw [wordsFrom_cons, if_pos hblank, ih hws]
          rw [hjoin, words_append hw (by rw [hspace]), hspace]

theorem isSolid_wordsFrom (t : Text) :
    IsSolid (wordsFrom t).1 ∧ ∀ w ∈ (wordsFrom t).2, IsWord w := by
  induction t with
  | nil => exact ⟨nofun, nofun⟩
  | cons c t ih =>
      rw [wordsFrom_cons]
      split
      next hc =>
        refine ⟨nofun, ?_⟩
        rw [words_eq]
        split
        next hnil => exact ih.2
        next hne => exact List.forall_mem_cons.2 ⟨⟨by simpa using hne, ih.1⟩, ih.2⟩
      next hc => exact ⟨isSolid_cons.2 ⟨by simpa using hc, ih.1⟩, ih.2⟩

theorem isWord_of_mem_words {t w : Text} (h : w ∈ words t) : IsWord w := by
  obtain ⟨hfirst, hrest⟩ := isSolid_wordsFrom t
  rw [words_eq] at h
  split at h
  next hnil => exact hrest w h
  next hne =>
    rcases List.mem_cons.1 h with rfl | h
    · exact ⟨by simpa using hne, hfirst⟩
    · exact hrest w h

end JsonnetPreview.Text
