import JsonnetPreview.World.FileFault
import Mathlib.Logic.ExistsUnique

namespace JsonnetPreview.Path

/-- From one place to another one. What is empty and a dot lead nowhere, and no step leads above the
root. -/
inductive Leads : Place → List Text → Place → Prop
  | arrived (p : Place) : Leads p [] p
  | stay {p q : Place} {part : Text} {rest : List Text} (hpart : part = [] ∨ part = here)
      (h : Leads p rest q) : Leads p (part :: rest) q
  | up {p q : Place} {rest : List Text} (h : Leads p.dropLast rest q) : Leads p (up :: rest) q
  | down {p q : Place} {part : Text} {rest : List Text} (hempty : part ≠ []) (hhere : part ≠ here)
      (hup : part ≠ up) (h : Leads (p ++ [part]) rest q) : Leads p (part :: rest) q

/-- Where a path starts from: the root, or the current directory. -/
def origin (directory : Path) (path : Text) : Place :=
  if path.head? = some (.char '/') then [] else directory.parts.foldl walk []

/-- A path, as it is written, leads to a place. -/
def Denotes (directory : Path) (path : Text) (place : Place) : Prop :=
  Leads (origin directory path) (split path) place

def steps (parts : List Text) : List Text := parts.filter fun part => !part.isEmpty && part ≠ here

theorem steps_cons_of_idle {part : Text} (h : part = [] ∨ part = here) (rest : List Text) :
    steps (part :: rest) = steps rest := by
  rcases h with rfl | rfl <;> simp [steps]

theorem steps_cons {part : Text} (hempty : part ≠ []) (hhere : part ≠ here) (rest : List Text) :
    steps (part :: rest) = part :: steps rest := by
  simp [steps, hempty, hhere]

theorem eq_foldl_of_leads {p q : Place} {parts : List Text} (h : Leads p parts q) :
    (steps parts).foldl walk p = q := by
  induction h with
  | arrived => rfl
  | stay hpart h ih => rwa [steps_cons_of_idle hpart]
  | up h ih =>
      rw [steps_cons (by decide) (by decide), List.foldl_cons, walk, if_pos rfl]
      exact ih
  | down hempty hhere hup h ih =>
      rw [steps_cons hempty hhere, List.foldl_cons, walk, if_neg hup]
      exact ih

theorem leads_foldl (p : Place) (parts : List Text) :
    Leads p parts ((steps parts).foldl walk p) := by
  induction parts generalizing p with
  | nil => exact .arrived p
  | cons part rest ih =>
      by_cases hidle : part = [] ∨ part = here
      · rw [steps_cons_of_idle hidle]
        exact .stay hidle (ih p)
      · obtain ⟨hempty, hhere⟩ := not_or.1 hidle
        rw [steps_cons hempty hhere, List.foldl_cons, walk]
        split
        next hup =>
          subst hup
          exact .up (ih p.dropLast)
        next hup => exact .down hempty hhere hup (ih (p ++ [part]))

theorem isAbsolute_ofText (t : Text) :
    (ofText t).isAbsolute = true ↔ t.head? = some (.char '/') := by
  cases t with
  | nil => simp [isAbsolute, ofText, anchorOf]
  | cons c r =>
      by_cases hc : c = .char '/'
      · subst hc
        simp only [isAbsolute, ofText, anchorOf, List.takeWhile_cons, isSlash, decide_true, if_true,
          List.length_cons, List.head?_cons, decide_eq_true_eq, iff_true]
        split <;> simp_all
      · simp [isAbsolute, ofText, anchorOf, isSlash, hc]

theorem resolve_ofText (directory : Path) (path : Text) :
    (ofText path).resolve directory = (steps (split path)).foldl walk (origin directory path) := by
  rw [resolve, absolute, origin]
  by_cases h : path.head? = some (.char '/')
  · rw [if_pos ((isAbsolute_ofText path).2 h), if_pos h]
    rfl
  · rw [if_neg ((not_congr (isAbsolute_ofText path)).2 h), if_neg h, join, List.foldl_append]
    rfl

/-- A path leads to the place that it is resolved to, and to no other. -/
theorem denotes_iff {directory : Path} {path : Text} {place : Place} :
    Denotes directory path place ↔ (ofText path).resolve directory = place := by
  rw [resolve_ofText]
  constructor
  · exact eq_foldl_of_leads
  · rintro rfl
    exact leads_foldl _ _

theorem existsUnique_denotes (directory : Path) (path : Text) :
    ∃! place, Denotes directory path place := by
  simp only [denotes_iff, existsUnique_eq']

/-- Two spellings of one place. -/
def SamePlace (directory : Path) (path path' : Text) : Prop :=
  ∃ place, Denotes directory path place ∧ Denotes directory path' place

theorem samePlace_iff {directory : Path} {path path' : Text} : SamePlace directory path path' ↔
    (ofText path).resolve directory = (ofText path').resolve directory := by
  simp only [SamePlace, denotes_iff, exists_eq_left']
  exact eq_comm

instance (directory : Path) : DecidableRel (SamePlace directory) :=
  fun _ _ => decidable_of_iff _ samePlace_iff.symm

theorem samePlace_equivalence (directory : Path) : Equivalence (SamePlace directory) := by
  refine ⟨fun _ => ?_, ?_, ?_⟩ <;> simp only [samePlace_iff]
  · exact Eq.symm
  · exact Eq.trans

end JsonnetPreview.Path
