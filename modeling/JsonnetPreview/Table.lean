
namespace JsonnetPreview

abbrev Table (κ α : Type _) := List (κ × α)

namespace Table

variable {κ α : Type _} [BEq κ]

def get? (t : Table κ α) (k : κ) : Option α := List.lookup k t

/-- Give a key a value. A key that is there already keeps its place, and its first spelling. -/
def set (k : κ) (v : α) : Table κ α → Table κ α
  | [] => [(k, v)]
  | (k', v') :: rest => if k' == k then (k', v) :: rest else (k', v') :: set k v rest

def setAll (t : Table κ α) (pairs : List (κ × α)) : Table κ α :=
  pairs.foldl (fun t (k, v) => t.set k v) t

def ofPairs (pairs : List (κ × α)) : Table κ α := setAll [] pairs

variable [LawfulBEq κ]

theorem get?_set_self (k : κ) (v : α) (t : Table κ α) : (t.set k v).get? k = some v := by
  induction t with
  | nil => simp [set, get?]
  | cons entry rest ih =>
    obtain ⟨k', v'⟩ := entry
    by_cases h : k' = k
    · subst h
      simp [set, get?]
    · have h' : (k == k') = false := by simpa using Ne.symm h
      simp only [get?] at ih
      simp [set, get?, List.lookup_cons, h, h', ih]

theorem get?_set_of_ne {k k₁ : κ} (h : k₁ ≠ k) (v : α) (t : Table κ α) :
    (t.set k v).get? k₁ = t.get? k₁ := by
  have h' : (k₁ == k) = false := by simpa using h
  induction t with
  | nil => simp [set, get?, List.lookup_cons, h']
  | cons entry rest ih =>
    obtain ⟨k', v'⟩ := entry
    simp only [get?] at ih
    by_cases hk : k' = k
    · subst hk
      simp [set, get?, List.lookup_cons, h']
    · by_cases hk₁ : k₁ = k'
      · subst hk₁
        simp [set, get?, hk]
      · have : (k₁ == k') = false := by simpa using hk₁
        simp [set, get?, List.lookup_cons, hk, this, ih]

end Table
end JsonnetPreview
