import Mathlib.Data.List.Induction
import Mathlib.Data.List.Nodup
import Mathlib.Data.List.Perm.Basic

namespace JsonnetPreview

/-- The keys in the order in which they were first given, each with what was given for it. -/
abbrev Groups (κ α : Type) := List (κ × List α)

namespace Groups

variable {κ α : Type}

def keys (m : Groups κ α) : List κ := m.map (·.1)

/-- Every key is there once, and none without anything. -/
structure WellFormed (m : Groups κ α) : Prop where
  nodup : m.keys.Nodup
  ne_nil : ∀ entry ∈ m, entry.2 ≠ []

theorem wellFormed_nil : WellFormed ([] : Groups κ α) := ⟨List.nodup_nil, nofun⟩

variable [DecidableEq κ]

def add (k : κ) (x : α) : Groups κ α → Groups κ α
  | [] => [(k, [x])]
  | (l, xs) :: rest => if l = k then (l, xs ++ [x]) :: rest else (l, xs) :: add k x rest

def addAll (m : Groups κ α) (given : List (κ × α)) : Groups κ α :=
  given.foldl (fun m x => m.add x.1 x.2) m

def ofKey (k : κ) (given : List (κ × α)) : List α := (given.filter (·.1 = k)).map (·.2)

theorem ofKey_append (k : κ) (xs ys : List (κ × α)) :
    ofKey k (xs ++ ys) = ofKey k xs ++ ofKey k ys := by
  rw [ofKey, List.filter_append, List.map_append]
  rfl

theorem ofKey_flatMap {β : Type} (k : κ) (f : β → List (κ × α)) (xs : List β) :
    ofKey k (xs.flatMap f) = xs.flatMap fun x => ofKey k (f x) := by
  rw [ofKey, List.filter_flatMap, List.map_flatMap]
  rfl

theorem ofKey_zipIdx {β : Type} (f : β → Nat → Option α) (xs : List β) (i : Nat) :
    ofKey i (xs.zipIdx.filterMap fun x => (f x.1 x.2).map (x.2, ·)) =
      (xs[i]?.bind (f · i)).toList := by
  induction xs using List.reverseRecOn with
  | nil => rfl
  | append_singleton xs x ih =>
      have hlast : ofKey i ([(x, xs.length)].filterMap fun x => (f x.1 x.2).map (x.2, ·)) =
          if i = xs.length then (f x i).toList else [] := by
        by_cases hi : i = xs.length
        · cases h : f x i <;> simp [ofKey, ← hi, h]
        · cases h : f x xs.length <;> simp [ofKey, h, hi, Ne.symm hi]
      rw [List.zipIdx_append, List.filterMap_append, List.zipIdx_singleton, Nat.zero_add,
        ofKey_append, ih, hlast]
      rcases Nat.lt_trichotomy i xs.length with hi | rfl | hi
      · rw [if_neg (Nat.ne_of_lt hi), List.append_nil, List.getElem?_append_left hi]
      · simp
      · have hlength : (xs ++ [x]).length ≤ i := by rwa [List.length_append]
        rw [if_neg (Nat.ne_of_gt hi), List.getElem?_eq_none hlength,
          List.getElem?_eq_none (Nat.le_of_lt hi)]
        rfl

theorem flatMap_ofKey {β : Type} (k : κ) (f : α → List β) (given : List (κ × α)) :
    (ofKey k given).flatMap f = given.flatMap fun x => if x.1 = k then f x.2 else [] := by
  induction given with
  | nil => rfl
  | cons x given ih =>
      by_cases hx : x.1 = k <;> simp_all [ofKey]

theorem flatMap_zipIdx {β γ : Type} (f : β → List γ) (xs : List β) (i : Nat) :
    (xs.zipIdx.flatMap fun x => if x.2 = i then f x.1 else []) = xs[i]?.toList.flatMap f := by
  have hat : ofKey i (xs.zipIdx.map fun x => (x.2, x.1)) = xs[i]?.toList := by
    simpa using ofKey_zipIdx (fun x _ => some x) xs i
  rw [← hat, flatMap_ofKey, List.flatMap_map]

theorem keys_add (k : κ) (x : α) (m : Groups κ α) :
    (m.add k x).keys = if k ∈ m.keys then m.keys else m.keys ++ [k] := by
  induction m with
  | nil => rfl
  | cons entry m ih =>
      obtain ⟨l, xs⟩ := entry
      by_cases hl : l = k
      · simp [add, keys, hl]
      · simp only [keys] at ih
        by_cases hmem : k ∈ m.map (·.1) <;> simp [add, keys, hl, Ne.symm hl, ih, hmem]

theorem wellFormed_add {k : κ} {x : α} {m : Groups κ α} (h : m.WellFormed) :
    (m.add k x).WellFormed := by
  constructor
  · rw [keys_add]
    split
    next => exact h.nodup
    next hmem =>
      refine List.nodup_append.2 ⟨h.nodup, List.pairwise_singleton _ _, ?_⟩
      rintro l hl _ hk rfl
      exact hmem (List.mem_singleton.1 hk ▸ hl)
  · have hne := h.ne_nil
    clear h
    induction m with
    | nil => simp [add]
    | cons entry m ih =>
        obtain ⟨l, xs⟩ := entry
        obtain ⟨hxs, hm⟩ := List.forall_mem_cons.1 hne
        by_cases hl : l = k
        · rw [add, if_pos hl]
          exact List.forall_mem_cons.2 ⟨by simp, hm⟩
        · rw [add, if_neg hl]
          exact List.forall_mem_cons.2 ⟨hxs, ih hm⟩

theorem wellFormed_addAll {m : Groups κ α} (h : m.WellFormed) (given : List (κ × α)) :
    (m.addAll given).WellFormed := by
  induction given generalizing m with
  | nil => exact h
  | cons x given ih => exact ih (wellFormed_add h)

variable [BEq κ] [LawfulBEq κ]

def get (m : Groups κ α) (k : κ) : List α := (m.lookup k).getD []

theorem get_cons (k l : κ) (xs : List α) (m : Groups κ α) :
    get ((l, xs) :: m) k = if l = k then xs else get m k := by
  rw [get, List.lookup_cons]
  by_cases h : l = k
  · rw [if_pos h, h, BEq.rfl]
    rfl
  · rw [if_neg h, beq_false_of_ne (Ne.symm h)]
    rfl

theorem get_add (k l : κ) (x : α) (m : Groups κ α) :
    (m.add l x).get k = if l = k then m.get k ++ [x] else m.get k := by
  induction m with
  | nil => exact get_cons k l [x] []
  | cons entry m ih =>
      obtain ⟨l', xs⟩ := entry
      by_cases hl : l' = l
      · subst hl
        by_cases hk : l' = k <;> simp [add, get_cons, hk]
      · rw [add, if_neg hl, get_cons, get_cons, ih]
        by_cases hk : l' = k
        · simp [hk, show l ≠ k from fun h => hl (hk.trans h.symm)]
        · simp [hk]

theorem get_addAll (k : κ) (m : Groups κ α) (given : List (κ × α)) :
    (m.addAll given).get k = m.get k ++ ofKey k given := by
  induction given generalizing m with
  | nil => simp [addAll, ofKey]
  | cons x given ih =>
      obtain ⟨l, x⟩ := x
      have hstep : m.addAll ((l, x) :: given) = (m.add l x).addAll given := rfl
      rw [hstep, ih, get_add]
      by_cases hk : l = k <;> simp [ofKey, hk]

theorem WellFormed.mem_keys_iff {m : Groups κ α} (h : m.WellFormed) {k : κ} :
    k ∈ m.keys ↔ m.get k ≠ [] := by
  obtain ⟨-, hne⟩ := h
  induction m with
  | nil => simp [keys, get]
  | cons entry m ih =>
      obtain ⟨l, xs⟩ := entry
      obtain ⟨hxs, hm⟩ := List.forall_mem_cons.1 hne
      rw [get_cons, keys, List.map_cons, List.mem_cons, ← keys]
      by_cases hk : l = k
      · simp [hk, hxs]
      · rw [if_neg hk, ← ih hm, or_iff_right (Ne.symm hk)]

def entries (m : Groups κ α) : List (κ × α) := m.flatMap fun (k, xs) => xs.map (k, ·)

theorem flatMap_keys {m : Groups κ α} (h : (keys m).Nodup) :
    ((keys m).flatMap fun k => (get m k).map (k, ·)) = entries m := by
  induction m with
  | nil => rfl
  | cons entry m ih =>
      obtain ⟨k, xs⟩ := entry
      have hkeys : keys ((k, xs) :: m) = k :: keys m := rfl
      obtain ⟨hk, hm⟩ := List.nodup_cons.1 (hkeys ▸ h)
      have hrest : ((keys m).flatMap fun l => (get ((k, xs) :: m) l).map (l, ·)) = entries m := by
        rw [← ih hm]
        refine List.flatMap_congr fun l hl => ?_
        rw [get_cons, if_neg fun h : k = l => hk (h ▸ hl)]
      rw [hkeys, List.flatMap_cons, hrest, get_cons, if_pos rfl]
      rfl

theorem WellFormed.perm_entries {m : Groups κ α} (h : m.WellFormed) {ks : List κ} (hks : ks.Nodup)
    (hmem : ∀ k ∈ keys m, k ∈ ks) :
    (ks.flatMap fun k => (get m k).map (k, ·)).Perm (entries m) := by
  have hfilter : ((ks.filter fun k => get m k ≠ []).flatMap fun k => (get m k).map (k, ·)) =
      ks.flatMap fun k => (get m k).map (k, ·) := by
    clear hks hmem
    induction ks with
    | nil => rfl
    | cons k ks ih =>
        by_cases hk : get m k = [] <;> simpa [hk] using ih
  rw [← flatMap_keys h.nodup, ← hfilter]
  refine List.Perm.flatMap_right _ ?_
  refine (List.perm_ext_iff_of_nodup (hks.filter _) h.nodup).2 fun k => ?_
  rw [List.mem_filter, h.mem_keys_iff, decide_eq_true_eq, and_iff_right_iff_imp]
  exact fun hk => hmem k (h.mem_keys_iff.2 hk)

end Groups
end JsonnetPreview
