import JsonnetPreview.Json.Reader
import JsonnetPreview.Proofs.Text.Trim

namespace JsonnetPreview.Json

/-- A decision that goes through the list, and not through all characters. -/
theorem forall_mem_chars {p : Char → Prop} [DecidablePred p] {cs : List Char}
    (h : cs.all (fun c => p c)) : ∀ c ∈ cs, p c :=
  fun c hc => of_decide_eq_true (List.all_eq_true.1 h c hc)

inductive Quoting where
  | outside
  | inside
  | escaped
  deriving DecidableEq, Repr

structure Outline where
  quoting : Quoting := .outside
  depth : Nat := 0
  deriving DecidableEq, Repr

namespace Outline

def step (o : Outline) (c : CodePoint) : Outline :=
  match o.quoting with
  | .escaped => { o with quoting := .inside }
  | .inside =>
    if c = .char '"' then { o with quoting := .outside }
    else if c = .char '\\' then { o with quoting := .escaped }
    else o
  | .outside =>
    if c = .char '"' then { o with quoting := .inside }
    else if c = .char '[' ∨ c = .char '\x7b' then { o with depth := o.depth + 1 }
    else if c = .char ']' ∨ c = .char '\x7d' then { o with depth := o.depth - 1 }
    else o

def deepest (o : Outline) : Text → Nat
  | [] => o.depth
  | c :: r => max o.depth ((o.step c).deepest r)

theorem depth_le_deepest (o : Outline) (t : Text) : o.depth ≤ o.deepest t := by
  cases t with
  | nil => exact Nat.le_refl _
  | cons c r => exact Nat.le_max_left ..

theorem deepest_append (o : Outline) (t u : Text) :
    o.deepest (t ++ u) = max (o.deepest t) ((t.foldl step o).deepest u) := by
  induction t generalizing o with
  | nil => exact (Nat.max_eq_right (o.depth_le_deepest u)).symm
  | cons c r ih => simp only [List.cons_append, deepest, ih, List.foldl_cons, Nat.max_assoc]

def marks : List Char := ['"', '[', '\x7b', ']', '\x7d']

theorem step_of_not_mark {c : CodePoint} (h : ∀ m ∈ marks, c ≠ .char m) (n : Nat) :
    step ⟨.outside, n⟩ c = ⟨.outside, n⟩ := by
  simp only [marks, List.forall_mem_cons] at h
  simp [step, h]

theorem quoting_step_ne_outside {o : Outline} (h : o.quoting ≠ .outside) {c : CodePoint}
    (hc : c ≠ .char '"') : (o.step c).quoting ≠ .outside := by
  obtain ⟨quoting, depth⟩ := o
  cases quoting with
  | outside => exact absurd rfl h
  | inside =>
      simp only [step, if_neg hc]
      split <;> simp
  | escaped => simp [step]

end Outline

def Role.depth : Role → Nat
  | .value => 0
  | .key _ => 1

/-- An object is not a scope before the first colon in it, nor between a comma and a colon. -/
def Mode.outline : Mode → Outline
  | .key _ _ | .colon _ _ => ⟨.outside, 1⟩
  | .string role _ _ | .hex role _ _ _ => ⟨.inside, role.depth⟩
  | .escape role _ _ => ⟨.escaped, role.depth⟩
  | _ => ⟨.outside, 0⟩

def State.outline (s : State) : Outline :=
  ⟨s.mode.outline.quoting, s.scopes.length + s.mode.outline.depth⟩

def Mode.Plain : Mode → Prop
  | .word _ _ rest => ∀ r ∈ rest, r.isAlpha
  | _ => True

def State.Fits (s : State) (o : Outline) : Prop := s.mode.Plain ∧ s.outline = o

end JsonnetPreview.Json
