import JsonnetPreview.Proofs.Variables.Format

namespace JsonnetPreview.Table

variable {κ α : Type _}

def keys (t : Table κ α) : List κ := t.map (·.1)

theorem keys_append (t u : Table κ α) : keys (t ++ u) = keys t ++ keys u := List.map_append

variable [BEq κ]

theorem setAll_append (t : Table κ α) (u v : List (κ × α)) :
    t.setAll (u ++ v) = (t.setAll u).setAll v := List.foldl_append

variable [LawfulBEq κ] {t u : Table κ α} {k : κ}

theorem forall_ne_of_not_mem (h : k ∉ keys t) : ∀ e ∈ t, (e.1 == k) = false := by
  intro e he
  have hne : e.1 ≠ k := fun hk => h (hk ▸ List.mem_map_of_mem he)
  simpa using hne

theorem keys_set_of_mem (h : k ∈ keys t) (v : α) : keys (t.set k v) = keys t := by
  induction t with
  | nil => cases h
  | cons e t ih =>
      rw [set]
      split
      next => rfl
      next hk =>
        have hmem : k ∈ keys t := by
          rcases List.mem_cons.1 h with rfl | h
          · exact absurd (beq_self_eq_true _) hk
          · exact h
        exact congrArg (e.1 :: ·) (ih hmem)

theorem keys_set_of_not_mem (h : k ∉ keys t) (v : α) : keys (t.set k v) = keys t ++ [k] := by
  rw [set_of_forall_ne (forall_ne_of_not_mem h), keys_append]
  rfl

theorem eraseDups_keys (h : t.Distinct) : (keys t).eraseDups = keys t := by
  induction t with
  | nil => rfl
  | cons e t ih =>
      obtain ⟨he, ht⟩ := List.pairwise_cons.1 h
      have hfilter : (keys t).filter (fun k => !k == e.1) = keys t := by
        refine List.filter_eq_self.2 fun k hk => ?_
        obtain ⟨f, hf, rfl⟩ := List.mem_map.1 hk
        have hne : e.1 ≠ f.1 := by simpa using he f hf
        simpa using hne.symm
      show (e.1 :: keys t).eraseDups = e.1 :: keys t
      rw [List.eraseDups_cons, hfilter, ih ht]

theorem eraseDups_append_cons (h : k ∈ keys t) (ks : List κ) :
    (keys t ++ k :: ks).eraseDups = (keys t ++ ks).eraseDups := by
  have hremove : (k :: ks).removeAll (keys t) = ks.removeAll (keys t) :=
    List.filter_cons_of_neg (by simpa using h)
  rw [List.eraseDups_append, hremove, ← List.eraseDups_append]

theorem keys_setAll (ht : t.Distinct) (u : Table κ α) :
    keys (t.setAll u) = (keys t ++ keys u).eraseDups := by
  induction u generalizing t with
  | nil => exact (eraseDups_keys ht).symm.trans (congrArg _ (List.append_nil _).symm)
  | cons e u ih =>
      have hset : keys (t.setAll (e :: u)) = (keys (t.set e.1 e.2) ++ keys u).eraseDups :=
        ih (distinct_set ht e.1 e.2)
      rw [hset]
      by_cases h : e.1 ∈ keys t
      · rw [keys_set_of_mem h]
        exact (eraseDups_append_cons h (keys u)).symm
      · rw [keys_set_of_not_mem h, List.append_assoc]
        rfl

end JsonnetPreview.Table
