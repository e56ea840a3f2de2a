import JsonnetPreview.Config.Settings
import JsonnetPreview.Table

namespace JsonnetPreview

namespace VariableTable

def ofTable (t : Table Text Text) : VariableTable :=
  t.map fun (name, value) => (⟨.str name⟩, .str value)

theorem beq_str (a b : Text) : (VariableName.mk (.str a) == ⟨.str b⟩) = (a == b) :=
  (Bool.beq_eq_decide_eq a b).symm

theorem set_ofTable (t : Table Text Text) (name value : Text) :
    (ofTable t).set ⟨.str name⟩ (.str value) = ofTable (t.set name value) := by
  induction t with
  | nil => rfl
  | cons e t ih =>
      show Table.set _ _ ((⟨.str e.1⟩, .str e.2) :: ofTable t) = _
      rw [Table.set, Table.set, beq_str]
      split
      · rfl
      · exact congrArg _ ih

theorem setAll_ofTable (t : Table Text Text) (pairs : List (Text × Text)) :
    (ofTable t).setAll (pairs.map fun (name, value) => (⟨.str name⟩, .str value)) =
      ofTable (t.setAll pairs) := by
  induction pairs generalizing t with
  | nil => rfl
  | cons e pairs ih =>
      show Table.setAll ((ofTable t).set ⟨.str e.1⟩ (.str e.2)) _ = _
      rw [set_ofTable, ih]
      rfl

theorem ofTexts_eq (pairs : List (Text × Text)) : ofTexts pairs = ofTable (Table.ofPairs pairs) :=
  setAll_ofTable [] pairs

theorem toTexts_ofTable (t : Table Text Text) : (ofTable t).toTexts = t := by
  rw [toTexts, ofTable, List.map_map]
  exact List.map_id t

end VariableTable

namespace Config

variable {c : Config} {pairs : List (Text × Text)}

inductive HasTexts (c : Config) (pairs : List (Text × Text)) : Prop
  | given (h : c.given = some (.ofTexts pairs))
  | setting (hgiven : c.given = none)
      (h : c.get externals = .obj (pairs.map fun (name, value) => (name, .str value)))
  | unset (hgiven : c.given = none) (h : (c.get externals).isGiven = false) (hpairs : pairs = [])

theorem variablesIn_of_not_given {v : Json} (h : v.isGiven = false) : variablesIn v = .ok [] := by
  have helements : elementsOf v = .ok [] := by rw [elementsOf, h, if_neg Bool.false_ne_true]
  cases v with
  | obj members =>
      obtain rfl : members = [] := by simpa [Json.isGiven] using h
      rfl
  | null | bool | int | float | str | arr =>
      rw [variablesIn]
      · rw [helements]
        rfl
      · exact nofun

theorem HasTexts.externalVariables (h : c.HasTexts pairs) :
    c.externalVariables = .ok (.ofTexts pairs) := by
  rw [Config.externalVariables]
  cases h with
  | given h => rw [h]
  | setting hgiven h =>
      rw [hgiven, h, variablesIn, List.map_map]
      rfl
  | unset hgiven h hpairs =>
      rw [hgiven, hpairs]
      exact variablesIn_of_not_given h

end Config

end JsonnetPreview
