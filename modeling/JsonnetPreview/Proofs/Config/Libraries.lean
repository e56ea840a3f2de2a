import JsonnetPreview.Config.Settings
import JsonnetPreview.Proofs.Text.Replace
import Mathlib.Data.List.Forall2

namespace JsonnetPreview

namespace Config

variable {c : Config}

section Override

variable {name name' : Text} {v : Json}

theorem override_null (c : Config) (name : Text) : c.override [(name, .null)] = c := rfl

theorem override_of_ne_null (hv : v ≠ .null) (c : Config) (name : Text) :
    c.override [(name, v)] = c.set name v := by
  cases v with
  | null => exact absurd rfl hv
  | bool | int | float | str | arr | obj => rfl

theorem get?_override_of_ne (h : name ≠ name') (c : Config) (v : Json) :
    (c.override [(name', v)]).get? name = c.get? name := by
  cases v with
  | null => rfl
  | bool | int | float | str | arr | obj => exact Table.get?_set_of_ne h _ c.settings

theorem get?_override_self (hv : v ≠ .null) (c : Config) (name : Text) :
    (c.override [(name, v)]).get? name = some v := by
  rw [override_of_ne_null hv]
  exact Table.get?_set_self name v c.settings

theorem given_override (h : name ≠ externals) (c : Config) (v : Json) :
    (c.override [(name, v)]).given = c.given := by
  cases v with
  | null => rfl
  | bool | int | float | str | arr | obj => exact if_neg h

end Override

theorem elementsOf_arr (items : List Json) : elementsOf (.arr items) = .ok items := by
  cases items <;> rfl

theorem workspaceRoot_congr {c' : Config} (h : c'.get? workspaceFolder = c.get? workspaceFolder)
    (directory : Path) : c'.workspaceRoot directory = c.workspaceRoot directory := by
  rw [workspaceRoot, workspaceRoot, get, get, h]

/-- A path with the workspace root in the place of each mark. -/
def Expands (c : Config) (directory : Path) (item library : Text) : Prop :=
  ∃ root, c.workspaceRoot directory = .str root ∧ Text.Replaced workspaceMark root item library

theorem Expands.eq_replaceFrom {directory : Path} {item library root : Text}
    (h : c.Expands directory item library) (hroot : c.workspaceRoot directory = .str root) :
    library = replaceFrom workspaceMark root 0 item := by
  have hmark : workspaceMark ≠ [] := nofun
  obtain ⟨root', hroot', hreplaced⟩ := h
  obtain rfl : root' = root := Json.str.inj (hroot'.symm.trans hroot)
  exact ((replaceFrom_eq_iff hmark).2 hreplaced).symm

theorem eq_map_of_expands {directory : Path} {items libraries : List Text} {root : Text}
    (h : List.Forall₂ (c.Expands directory) items libraries)
    (hroot : c.workspaceRoot directory = .str root) :
    libraries = items.map (replaceFrom workspaceMark root 0) := by
  induction h with
  | nil => rfl
  | cons hitem _ ih => rw [List.map_cons, hitem.eq_replaceFrom hroot, ih]

/-- There is no need for a workspace root, or it is a text. -/
def IsRooted (c : Config) (directory : Path) (items : List Text) : Prop :=
  items ≠ [] → ∃ root, c.workspaceRoot directory = .str root

variable {items : List Json} {directory : Path}

theorem libraries_of_isRooted (hitems : c.get libraryPaths = .arr items)
    (h : c.IsRooted directory (items.map Json.display)) :
    ∃ libraries, c.libraries directory = .ok libraries ∧
      List.Forall₂ (c.Expands directory) (items.map Json.display) libraries := by
  have hmark : workspaceMark ≠ [] := nofun
  cases hroot : c.workspaceRoot directory with
  | str root =>
      refine ⟨items.map fun v => replaceFrom workspaceMark root 0 v.display, ?_, ?_⟩
      · rw [libraries, hitems, elementsOf_arr, hroot]
        rfl
      · rw [List.forall₂_map_left_iff, List.forall₂_map_right_iff]
        exact List.forall₂_same.2 fun v _ => ⟨root, hroot, replaced_replaceFrom hmark root v.display⟩
  | null | bool | int | float | arr | obj =>
      have hempty : items = [] := by
        by_contra hne
        obtain ⟨root, hroot'⟩ := h (by simpa using hne)
        cases hroot.symm.trans hroot'
      subst hempty
      exact ⟨[], by rw [libraries, hitems, elementsOf_arr, hroot]; rfl, .nil⟩

theorem libraries_of_not_isRooted (hitems : c.get libraryPaths = .arr items)
    (h : ¬c.IsRooted directory (items.map Json.display)) :
    c.libraries directory = .error (.rootNotText (c.workspaceRoot directory).kindName) := by
  obtain ⟨hne, hroot⟩ := Classical.not_imp.1 h
  have hempty : items.isEmpty = false := by simpa using hne
  rw [libraries, hitems, elementsOf_arr]
  cases hfolder : c.workspaceRoot directory with
  | str root => exact absurd ⟨root, hfolder⟩ hroot
  | null | bool | int | float | arr | obj =>
      show (if items.isEmpty then _ else _) = _
      rw [hempty]
      rfl

end Config

end JsonnetPreview
