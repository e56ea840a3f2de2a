import JsonnetPreview.Proofs.Text.Words
import JsonnetPreview.Config.VariableTable

namespace JsonnetPreview

namespace Table

section Keys

variable {κ α : Type _} [BEq κ]

def Distinct (t : Table κ α) : Prop := t.Pairwise fun e f => (e.1 == f.1) = false

instance (t : Table κ α) : Decidable t.Distinct :=
  inferInstanceAs (Decidable (t.Pairwise fun e f => (e.1 == f.1) = false))

theorem set_of_forall_ne {k : κ} {t : Table κ α} (h : ∀ e ∈ t, (e.1 == k) = false) (v : α) :
    t.set k v = t ++ [(k, v)] := by
  induction t with
  | nil => rfl
  | cons e t ih =>
      obtain ⟨he, ht⟩ := List.forall_mem_cons.1 h
      rw [set, if_neg (by simp [he]), ih ht]
      rfl

theorem setAll_of_distinct {t u : Table κ α} (h : Distinct (t ++ u)) : t.setAll u = t ++ u := by
  induction u generalizing t with
  | nil => exact (List.append_nil t).symm
  | cons e u ih =>
      have hset : t.set e.1 e.2 = t ++ [e] :=
        set_of_forall_ne (fun f hf => (List.pairwise_append.1 h).2.2 f hf e (by simp)) e.2
      have happ : t ++ [e] ++ u = t ++ e :: u := by simp
      rw [← happ] at h ⊢
      rw [← ih h, ← hset]
      rfl

theorem ofPairs_of_distinct {t : Table κ α} (h : Distinct t) : ofPairs t = t := setAll_of_distinct h

variable [LawfulBEq κ]

theorem mem_of_mem_set {k : κ} {v : α} {t : Table κ α} {e : κ × α} (h : e ∈ t.set k v) :
    e ∈ t ∨ e = (k, v) := by
  induction t with
  | nil => exact .inr (List.mem_singleton.1 h)
  | cons f t ih =>
      rw [set] at h
      split at h
      next hk =>
        rcases List.mem_cons.1 h with rfl | h
        · exact .inr (by rw [eq_of_beq hk])
        · exact .inl (List.mem_cons_of_mem _ h)
      next hk =>
        rcases List.mem_cons.1 h with rfl | h
        · exact .inl (List.mem_cons_self ..)
        · exact (ih h).imp (List.mem_cons_of_mem _) id

theorem distinct_set {t : Table κ α} (h : t.Distinct) (k : κ) (v : α) : (t.set k v).Distinct := by
  induction t with
  | nil => exact List.pairwise_singleton _ _
  | cons e t ih =>
      obtain ⟨he, ht⟩ := List.pairwise_cons.1 h
      rw [set]
      split
      next => exact List.pairwise_cons.2 ⟨he, ht⟩
      next hk =>
        refine List.pairwise_cons.2 ⟨fun f hf => ?_, ih ht⟩
        rcases mem_of_mem_set hf with hf | rfl
        · exact he f hf
        · exact Bool.eq_false_iff.2 hk

theorem distinct_setAll {t : Table κ α} (h : t.Distinct) (u : Table κ α) :
    (t.setAll u).Distinct := by
  induction u generalizing t with
  | nil => exact h
  | cons e u ih => exact ih (distinct_set h e.1 e.2)

theorem distinct_ofPairs (u : Table κ α) : (ofPairs u).Distinct := distinct_setAll .nil u

theorem mem_of_mem_setAll {t u : Table κ α} {e : κ × α} (h : e ∈ t.setAll u) : e ∈ t ∨ e ∈ u := by
  induction u generalizing t with
  | nil => exact .inl h
  | cons f u ih =>
      rcases ih h with h | h
      · rcases mem_of_mem_set h with h | rfl
        · exact .inl h
        · exact .inr (List.mem_cons_self ..)
      · exact .inr (List.mem_cons_of_mem _ h)

theorem mem_of_mem_ofPairs {u : Table κ α} {e : κ × α} (h : e ∈ ofPairs u) : e ∈ u :=
  (mem_of_mem_setAll h).resolve_left (List.not_mem_nil)

end Keys

end Table

namespace Variables

open Text

/-- Each variable has a name of its own that can stand before an equals sign. -/
structure Named (externals : Table Text Text) : Prop where
  distinct : externals.Distinct
  name_ne_nil : ∀ e ∈ externals, e.1 ≠ []
  equals_not_mem : ∀ e ∈ externals, .char '=' ∉ e.1

instance : DecidablePred Named := fun externals =>
  decidable_of_iff (externals.Distinct ∧ (∀ e ∈ externals, e.1 ≠ []) ∧
      ∀ e ∈ externals, .char '=' ∉ e.1)
    ⟨fun ⟨h, hne, hequals⟩ => ⟨h, hne, hequals⟩, fun ⟨h, hne, hequals⟩ => ⟨h, hne, hequals⟩⟩

def Solid (externals : Table Text Text) : Prop :=
  ∀ e ∈ externals, IsSolid e.1 ∧ IsSolid e.2

instance : DecidablePred Solid := fun externals =>
  inferInstanceAs (Decidable (∀ e ∈ externals, IsSolid e.1 ∧ IsSolid e.2))

theorem pair?_assignment {name : Text} (hne : name ≠ []) (hequals : .char '=' ∉ name)
    (value : Text) : pair? (assignment name value) = some (name, value) := by
  have hbreak : breakAt (· = .char '=') (assignment name value) = (name, some value) :=
    breakAt_append_cons (fun c hc => decide_eq_false fun h : c = .char '=' => hequals (h ▸ hc))
      (by decide) value
  obtain ⟨c, r, rfl⟩ := List.exists_cons_of_ne_nil hne
  rw [pair?, hbreak]

theorem eq_append_of_breakAt {p : CodePoint → Bool} {t before after : Text}
    (h : breakAt p t = (before, some after)) : ∃ c, p c = true ∧ t = before ++ c :: after := by
  induction t generalizing before with
  | nil => cases h
  | cons c t ih =>
      rw [breakAt] at h
      split at h
      next hc =>
        cases h
        exact ⟨c, hc, rfl⟩
      next hc =>
        obtain ⟨rfl, hafter⟩ := Prod.mk.inj h
        obtain ⟨d, hd, ht⟩ := ih (Prod.ext rfl hafter)
        exact ⟨d, hd, congrArg (c :: ·) ht⟩

theorem eq_assignment_of_pair? {word name value : Text} (h : pair? word = some (name, value)) :
    word = assignment name value := by
  unfold pair? at h
  split at h
  next => cases h
  next => cases h
  next hsplit =>
    cases h
    obtain ⟨c, hc, hword⟩ := eq_append_of_breakAt hsplit
    rw [hword, of_decide_eq_true hc]
    rfl

theorem isWord_assignment {name value : Text} (hname : IsSolid name) (hvalue : IsSolid value) :
    IsWord (assignment name value) where
  ne_nil := by simp [assignment]
  isSolid := isSolid_append.2 ⟨hname, isSolid_cons.2 ⟨by decide, hvalue⟩⟩

theorem parse_format {externals : Table Text Text} (h : Named externals) (hs : Solid externals) :
    parse (format externals) = externals := by
  have hwords : words (format externals) = externals.map fun e => assignment e.1 e.2 := by
    refine words_joinWith fun w hw => ?_
    obtain ⟨e, he, rfl⟩ := List.mem_map.1 hw
    exact isWord_assignment (hs e he).1 (hs e he).2
  have hpairs : (words (format externals)).filterMap pair? = externals := by
    rw [hwords, List.filterMap_map]
    refine (List.filterMap_congr fun e he => ?_).trans List.filterMap_some
    exact pair?_assignment (h.name_ne_nil e he) (h.equals_not_mem e he) e.2
  rw [parse, hpairs]
  exact Table.ofPairs_of_distinct h.distinct

theorem distinct_parse (t : Text) : (parse t).Distinct := Table.distinct_ofPairs _

theorem solid_parse (t : Text) : Solid (parse t) := by
  intro e he
  obtain ⟨word, hword, hpair⟩ := List.mem_filterMap.1 (Table.mem_of_mem_ofPairs he)
  have hsolid := (isWord_of_mem_words hword).isSolid
  rw [eq_assignment_of_pair? hpair, assignment, isSolid_append, isSolid_cons] at hsolid
  exact ⟨hsolid.1, hsolid.2.2⟩

theorem parse_format_eq_iff {externals : Table Text Text} (h : Named externals) :
    parse (format externals) = externals ↔ Solid externals :=
  ⟨fun heq => heq ▸ solid_parse (format externals), parse_format h⟩

end Variables

end JsonnetPreview
