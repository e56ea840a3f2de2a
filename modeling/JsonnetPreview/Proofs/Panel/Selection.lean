import JsonnetPreview.Panel.Peek
import Mathlib.Data.List.DropRight
import Mathlib.Data.List.Induction

namespace JsonnetPreview

open Report

namespace PeekPanel

def Selects (p : PeekPanel) : Prop := p.diagnostics ≠ [] → p.index < p.diagnostics.length

theorem Selects.current_eq_none {p : PeekPanel} (h : p.Selects) :
    p.current = none ↔ p.diagnostics = [] := by
  rw [current, List.getElem?_eq_none_iff]
  constructor
  · intro hle
    refine Classical.byContradiction fun hne => ?_
    exact absurd (h hne) (Nat.not_lt.2 hle)
  · intro hnil
    rw [hnil]
    exact Nat.zero_le _

theorem selects_update (lines : List Text) (ds : List Diagnostic) : (update lines ds).Selects :=
  List.length_pos_iff.2

structure Turns (p q : PeekPanel) : Prop where
  lines : q.lines = p.lines
  diagnostics : q.diagnostics = p.diagnostics
  selects : q.Selects

section Turn

variable {p q r : PeekPanel}

theorem Turns.trans (hq : p.Turns q) (hr : q.Turns r) : p.Turns r :=
  ⟨hr.lines.trans hq.lines, hr.diagnostics.trans hq.diagnostics, hr.selects⟩

theorem Turns.eq_of_index (hq : p.Turns q) (hr : p.Turns r) (h : q.index = r.index) : q = r := by
  cases q
  cases r
  cases hq.lines.trans hr.lines.symm
  cases hq.diagnostics.trans hr.diagnostics.symm
  cases h
  rfl

/-- Go a number of diagnostics on, or back if the number is negative. -/
def turn (p : PeekPanel) (k : Int) : PeekPanel :=
  if p.diagnostics.isEmpty then p
  else { p with index := ((p.index + k) % p.diagnostics.length).toNat }

theorem turn_of_nil (h : p.diagnostics = []) (k : Int) : p.turn k = p :=
  if_pos (List.isEmpty_iff.2 h)

theorem turn_of_ne_nil (h : p.diagnostics ≠ []) (k : Int) :
    p.turn k = { p with index := ((p.index + k) % p.diagnostics.length).toNat } :=
  if_neg (mt List.isEmpty_iff.1 h)

theorem length_pos (h : p.diagnostics ≠ []) : (0 : Int) < p.diagnostics.length :=
  Int.natCast_pos.2 (List.length_pos_iff.2 h)

theorem index_turn (h : p.diagnostics ≠ []) (k : Int) :
    ((p.turn k).index : Int) = (p.index + k) % p.diagnostics.length := by
  rw [turn_of_ne_nil h]
  exact Int.toNat_of_nonneg (Int.emod_nonneg _ (Int.ne_of_gt (length_pos h)))

theorem turns_turn (p : PeekPanel) (k : Int) : p.Turns (p.turn k) := by
  by_cases h : p.diagnostics = []
  · rw [turn_of_nil h]
    exact ⟨rfl, rfl, fun hne => absurd h hne⟩
  · have hlt : ((p.turn k).index : Int) < p.diagnostics.length := by
      rw [index_turn h]
      exact Int.emod_lt_of_pos _ (length_pos h)
    rw [turn_of_ne_nil h] at hlt ⊢
    exact ⟨rfl, rfl, fun _ => Int.ofNat_lt.1 hlt⟩

theorem turn_turn (p : PeekPanel) (j k : Int) : (p.turn j).turn k = p.turn (j + k) := by
  by_cases h : p.diagnostics = []
  · rw [turn_of_nil h, turn_of_nil h, turn_of_nil h]
  · have hj := turns_turn p j
    have hne : (p.turn j).diagnostics ≠ [] := hj.diagnostics ▸ h
    refine (hj.trans (turns_turn _ k)).eq_of_index (turns_turn p (j + k)) (Int.ofNat_inj.1 ?_)
    rw [index_turn hne, hj.diagnostics, index_turn h, index_turn h, Int.emod_add_emod,
      Int.add_assoc]

theorem Selects.turn_zero (h : p.Selects) : p.turn 0 = p := by
  by_cases hnil : p.diagnostics = []
  · exact turn_of_nil hnil 0
  · refine (turns_turn p 0).eq_of_index ⟨rfl, rfl, h⟩ (Int.ofNat_inj.1 ?_)
    rw [index_turn hnil, Int.add_zero]
    exact Int.emod_eq_of_lt (Int.natCast_nonneg _) (Int.ofNat_lt.2 (h hnil))

theorem next_eq_turn (p : PeekPanel) : p.next = p.turn 1 := by
  by_cases h : p.diagnostics = []
  · rw [turn_of_nil h, next, if_pos (List.isEmpty_iff.2 h)]
  · rw [turn_of_ne_nil h, next, if_neg (mt List.isEmpty_iff.1 h)]
    rfl

/-- The length is added before the step back so that no number is below zero; modulo the length it
makes no difference. -/
theorem previous_eq_turn (p : PeekPanel) : p.previous = p.turn (-1) := by
  by_cases h : p.diagnostics = []
  · rw [turn_of_nil h, previous, if_pos (List.isEmpty_iff.2 h)]
  · have hpos := List.length_pos_iff.2 h
    have hback : ((p.index + p.diagnostics.length - 1 : Nat) : Int) =
        p.index + -1 + p.diagnostics.length := by omega
    have hindex : (p.index + p.diagnostics.length - 1) % p.diagnostics.length =
        (((p.index : Int) + -1) % p.diagnostics.length).toNat := by
      rw [← Int.add_emod_right, ← hback, ← Int.natCast_emod, Int.toNat_natCast]
    rw [turn_of_ne_nil h, previous, if_neg (mt List.isEmpty_iff.1 h), hindex]

end Turn

theorem turns_next (p : PeekPanel) : p.Turns p.next := next_eq_turn p ▸ turns_turn p 1

theorem turns_previous (p : PeekPanel) : p.Turns p.previous :=
  previous_eq_turn p ▸ turns_turn p (-1)

namespace Action

def isStep : Action → Bool
  | update .. => false
  | next | previous => true

def shift : Action → Int
  | update .. => 0
  | next => 1
  | previous => -1

def given? : Action → Option (List Text × List Diagnostic)
  | update lines diagnostics => some (lines, diagnostics)
  | next | previous => none

end Action

def lastGiven (actions : List Action) : List Text × List Diagnostic :=
  (actions.filterMap Action.given?).getLastD ([], [])

def sinceUpdate (actions : List Action) : List Action := actions.rtakeWhile Action.isStep

/-- How many more steps go on than back. -/
def offset (actions : List Action) : Int := actions.count .next - actions.count .previous

def performs (p : PeekPanel) (actions : List Action) : PeekPanel :=
  actions.foldl (fun p a => (p.perform a).1) p

section Perform

variable {p : PeekPanel} {a b : Action}

theorem perform_of_nil (ha : a.isStep) (h : p.diagnostics = []) : p.perform a = (p, none) := by
  have hempty := List.isEmpty_iff.2 h
  cases a with
  | update => cases ha
  | next | previous => exact if_pos hempty

theorem perform_eq_drawn (h : ¬(a.isStep ∧ p.diagnostics = [])) :
    p.perform a = (p.perform a).1.drawn := by
  have hne (ha : a.isStep) : ¬p.diagnostics.isEmpty := fun hempty =>
    h ⟨ha, List.isEmpty_iff.1 hempty⟩
  cases a with
  | update => rfl
  | next | previous =>
      rw [perform, if_neg (hne rfl)]
      rfl

theorem perform_of_isStep (ha : a.isStep) : (p.perform a).1 = p.turn a.shift := by
  by_cases h : p.diagnostics = []
  · rw [perform_of_nil ha h, turn_of_nil h]
  · have hne := mt List.isEmpty_iff.1 h
    cases a with
    | update => cases ha
    | next =>
        rw [perform, if_neg hne]
        exact next_eq_turn p
    | previous =>
        rw [perform, if_neg hne]
        exact previous_eq_turn p

theorem Selects.perform_perform (h : p.Selects) (ha : a.isStep) (hb : b.isStep)
    (hab : a.shift + b.shift = 0) : ((p.perform a).1.perform b).1 = p := by
  rw [perform_of_isStep ha, perform_of_isStep hb, turn_turn, hab]
  exact h.turn_zero

end Perform

section Performs

variable (actions : List Action)

theorem lastGiven_update (lines : List Text) (ds : List Diagnostic) :
    lastGiven (actions ++ [.update lines ds]) = (lines, ds) := by
  simp [lastGiven, Action.given?]

theorem lastGiven_step {a : Action} (ha : a.isStep) :
    lastGiven (actions ++ [a]) = lastGiven actions := by
  cases a with
  | update => cases ha
  | next | previous => simp [lastGiven, Action.given?]

theorem sinceUpdate_update (lines : List Text) (ds : List Diagnostic) :
    sinceUpdate (actions ++ [.update lines ds]) = [] :=
  List.rtakeWhile_concat_neg _ _ _ nofun

theorem sinceUpdate_step {a : Action} (ha : a.isStep) :
    sinceUpdate (actions ++ [a]) = sinceUpdate actions ++ [a] :=
  List.rtakeWhile_concat_pos _ _ _ ha

theorem offset_concat (a : Action) : offset (actions ++ [a]) = offset actions + a.shift := by
  have hshift : offset [a] = a.shift := by cases a <;> rfl
  rw [← hshift, offset, offset, offset, List.count_append, List.count_append]
  omega

theorem performs_concat (p : PeekPanel) (a : Action) :
    p.performs (actions ++ [a]) = ((p.performs actions).perform a).1 :=
  List.foldl_concat ..

theorem performs_eq : performs {} actions =
    (update (lastGiven actions).1 (lastGiven actions).2).turn (offset (sinceUpdate actions)) := by
  -- What was given last and the steps since then are read from the end.
  induction actions using List.reverseRecOn with
  | nil => rfl
  | append_singleton actions a ih =>
      rw [performs_concat]
      cases a with
      | update lines ds =>
          rw [lastGiven_update, sinceUpdate_update]
          exact (selects_update lines ds).turn_zero.symm
      | next | previous =>
          rw [perform_of_isStep rfl, ih, turn_turn, lastGiven_step _ rfl, sinceUpdate_step _ rfl,
            offset_concat]

theorem turns_performs :
    (update (lastGiven actions).1 (lastGiven actions).2).Turns (performs {} actions) := by
  rw [performs_eq]
  exact turns_turn _ _

theorem index_performs (h : (lastGiven actions).2 ≠ []) : ((performs {} actions).index : Int) =
    offset (sinceUpdate actions) % (lastGiven actions).2.length := by
  rw [performs_eq, index_turn h]
  exact congrArg (· % _) (Int.zero_add _)

end Performs

/-- Whatever is done with a new panel, it has a current diagnostic if and only if it was last given any,
and this is the one at the number of steps since then, on less back, modulo the number of
diagnostics. A step and the step back lead to where they began. A step among no diagnostics does
nothing, and anything else draws the excerpt for the diagnostic that is current then, out of the
lines that were given last. -/
theorem current_of_performs (actions : List Action) :
    let p := performs {} actions
    let ds := (lastGiven actions).2
    (p.current = none ↔ ds = []) ∧
    (ds ≠ [] → ∃ h : p.index < ds.length,
      (p.index : Int) = offset (sinceUpdate actions) % ds.length ∧ p.current = some ds[p.index]) ∧
    p.performs [.next, .previous] = p ∧ p.performs [.previous, .next] = p ∧
    ∀ a : Action,
      (a.isStep ∧ ds = [] → p.perform a = (p, none)) ∧
      (¬(a.isStep ∧ ds = []) → (p.perform a).2 =
        some (Source.excerpt (lastGiven (actions ++ [a])).1 (p.perform a).1.current)) := by
  intro p ds
  have hturns := turns_performs actions
  have hds : p.diagnostics = ds := hturns.diagnostics
  refine ⟨hds ▸ hturns.selects.current_eq_none, fun hne => ?_, ?_, ?_, fun a => ⟨?_, ?_⟩⟩
  · have hlt : p.index < ds.length := hds ▸ hturns.selects (hds ▸ hne)
    refine ⟨hlt, index_performs actions hne, ?_⟩
    rw [current, hds]
    exact List.getElem?_eq_getElem hlt
  · exact hturns.selects.perform_perform rfl rfl rfl
  · exact hturns.selects.perform_perform rfl rfl rfl
  · rintro ⟨ha, hnil⟩
    exact perform_of_nil ha (hds.trans hnil)
  · intro h
    have hlines := (turns_performs (actions ++ [a])).lines
    rw [performs_concat] at hlines
    rw [perform_eq_drawn (hds ▸ h), drawn, shown]
    exact congrArg (fun lines => some (Source.excerpt lines _)) hlines

def errorAt (line : Int) : Diagnostic :=
  { range := ⟨⟨line, 0⟩, ⟨line, 1⟩⟩, message := "expected a comma" }

def shortened : List Action :=
  [.update ["a", "b", "c"] [errorAt 0, errorAt 1, errorAt 2], .previous,
    .update ["a", "b"] [errorAt 0, errorAt 1], .previous, .previous, .previous]

theorem current_of_performs_shortened :
    (lastGiven shortened).2 ≠ [] ∧ ((performs {} shortened).index : Int) = (-3) % 2 ∧
      (performs {} shortened).current = some (errorAt 1) := by
  have hgiven : (lastGiven shortened).2 ≠ [] := by decide
  obtain ⟨hlt, hindex, hcurrent⟩ := (current_of_performs shortened).2.1 hgiven
  exact ⟨hgiven, hindex, hcurrent⟩

end PeekPanel

end JsonnetPreview
