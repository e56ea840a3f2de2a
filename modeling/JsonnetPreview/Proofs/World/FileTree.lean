import JsonnetPreview.World.FileTree

namespace JsonnetPreview.FileTree

variable {t : FileTree} {place p : Place}

theorem node?_setNode_self (h : place ≠ []) (t : FileTree) (node : Node) :
    (t.setNode place node).node? place = some node := by
  have hplace : ¬ place.isEmpty := by simpa using h
  rw [setNode, if_neg hplace, node?, if_neg hplace]
  exact Table.get?_set_self place node t.nodes

theorem node?_setNode_of_ne (h : p ≠ place) (t : FileTree) (node : Node) :
    (t.setNode place node).node? p = t.node? p := by
  rw [setNode]
  split
  · rfl
  · simp only [node?, Table.get?_set_of_ne h]

theorem write_of_ne_directory (h : t.node? place ≠ some .directory) (content : Octets) :
    t.write place content = .ok (t.setNode place (.file content)) := by
  rw [write]
  split
  next hnode => exact absurd hnode h
  next => rfl

theorem node?_makeDirectories (t : FileTree) (place p : Place) :
    (t.makeDirectories place).node? p =
      if t.node? p = none ∧ p ∈ wayTo place then some .directory else t.node? p := by
  rw [makeDirectories]
  induction wayTo place generalizing t with
  | nil => simp
  | cons q way ih =>
      rw [List.foldl_cons, ih]
      by_cases hq : (t.node? q).isSome
      · rw [if_pos hq]
        by_cases hp : p = q
        · subst hp
          simp [Option.isSome_iff_ne_none.1 hq]
        · simp [hp]
      · have hnone : t.node? q = none := by simpa using hq
        have hne : q ≠ [] := by
          rintro rfl
          simp [node?] at hq
        rw [if_neg hq]
        by_cases hp : p = q
        · subst hp
          simp [node?_setNode_self hne, hnone]
        · simp [node?_setNode_of_ne hp, hp]

theorem barred?_setNode (t : FileTree) (place p : Place) (node : Node) :
    (t.setNode place node).barred? p = t.barred? p := by
  rw [setNode]
  split <;> rfl

theorem barred?_makeDirectories (t : FileTree) (place p : Place) :
    (t.makeDirectories place).barred? p = t.barred? p := by
  rw [makeDirectories]
  induction wayTo place generalizing t with
  | nil => rfl
  | cons q way ih =>
      rw [List.foldl_cons, ih]
      split
      · rfl
      · exact barred?_setNode t q p .directory

/-- At a place and above it there is no file and nothing that is not looked into. -/
def Clear (t : FileTree) (place : Place) : Prop :=
  ∀ p ∈ wayTo place, (∀ content, t.node? p ≠ some (.file content)) ∧ t.barred? p = none

theorem obstacle?_eq_none_iff : t.obstacle? place p = none ↔
    (∀ content, t.node? p ≠ some (.file content)) ∧ t.barred? p = none := by
  rw [obstacle?]
  split
  next content hcontent => exact iff_of_false nofun fun h => h.1 content hcontent
  next hfile => rw [Option.map_eq_none_iff, and_iff_right hfile]

theorem ensureDirectory_eq_ok_iff {t' : FileTree} : t.ensureDirectory place = .ok t' ↔
    t.Clear place ∧ t.makeDirectories place = t' := by
  have hclear : (wayTo place).findSome? (t.obstacle? place) = none ↔ t.Clear place := by
    simp only [List.findSome?_eq_none_iff, obstacle?_eq_none_iff, Clear]
  rw [ensureDirectory, ← hclear]
  cases (wayTo place).findSome? (t.obstacle? place) with
  | none => simp
  | some fault => simp

/-- The way to a place is there, and open. -/
def HasWay (t : FileTree) (place : Place) : Prop :=
  ∀ p ∈ wayTo place, t.node? p = some .directory ∧ t.barred? p = none

theorem HasWay.clear (h : t.HasWay place) : t.Clear place := by
  intro p hp
  obtain ⟨hnode, hopen⟩ := h p hp
  refine ⟨fun content hcontent => ?_, hopen⟩
  rw [hnode] at hcontent
  cases hcontent

theorem hasWay_makeDirectories (h : t.Clear place) : (t.makeDirectories place).HasWay place := by
  intro p hp
  obtain ⟨hfile, hopen⟩ := h p hp
  refine ⟨?_, (barred?_makeDirectories t place p).trans hopen⟩
  rw [node?_makeDirectories]
  split
  next => rfl
  next hsome =>
    cases hnode : t.node? p with
    | none => exact absurd ⟨hnode, hp⟩ hsome
    | some node =>
        cases node with
        | directory => rfl
        | file content => exact absurd hnode (hfile content)

theorem makeDirectories_of_hasWay (h : t.HasWay place) : t.makeDirectories place = t := by
  rw [makeDirectories]
  unfold HasWay at h
  generalize wayTo place = way at h
  induction way with
  | nil => rfl
  | cons q way ih =>
      have hq : (t.node? q).isSome := by rw [(h q List.mem_cons_self).1]; rfl
      rw [List.foldl_cons, if_pos hq]
      exact ih fun p hp => h p (List.mem_cons_of_mem q hp)

end JsonnetPreview.FileTree
