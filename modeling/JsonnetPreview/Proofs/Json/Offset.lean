import JsonnetPreview.Json.Reader

namespace JsonnetPreview.Json

def NumberPhase.unplaced : NumberPhase → NumberPhase
  | .point _ => .point 0
  | .exponentMark _ => .exponentMark 0
  | .exponentSign _ => .exponentSign 0
  | phase => phase

def Mode.unplaced : Mode → Mode
  | .string role _ body => .string role 0 body
  | .escape role _ body => .escape role 0 body
  | .hex role _ body digits => .hex role 0 body digits
  | .word _ v rest => .word 0 v rest
  | .minus _ => .minus 0
  | .number n phase => .number n phase.unplaced
  | m => m

def State.unplaced (s : State) : State := ⟨s.mode.unplaced, s.scopes⟩

def Failure.unplaced : Failure → Failure
  | .malformed complaint _ => .malformed complaint 0
  | e => e

def unplaced : Except Failure State → Except Failure State
  | .ok s => .ok s.unplaced
  | .error e => .error e.unplaced

theorem unplaced_stepAfter (v : Json) (scopes : List Scope) (p q : Nat) (c : CodePoint) :
    unplaced (stepAfter v scopes p c) = unplaced (stepAfter v scopes q c) := by
  unfold stepAfter
  split
  next => rfl
  next => split <;> rfl

theorem unplaced_endNumber (n : NumberText) (scopes : List Scope) (p q : Nat) (c : CodePoint) :
    unplaced (endNumber n scopes p c) = unplaced (endNumber n scopes q c) := by
  unfold endNumber
  cases n.value with
  | error e => rfl
  | ok v => exact unplaced_stepAfter v scopes p q c

theorem unplaced_giveUpNumber (n : NumberText) (scopes : List Scope) (m m' : Nat) :
    unplaced (giveUpNumber n scopes m) = unplaced (giveUpNumber n scopes m') := by
  unfold giveUpNumber
  cases n.value <;> rfl

variable [Stack]

theorem unplaced_beginValue (scopes : List Scope) (p q : Nat) (c : CodePoint) :
    unplaced (beginValue scopes p c) = unplaced (beginValue scopes q c) := by
  unfold beginValue
  split
  case h_10 => split <;> rfl
  all_goals rfl

theorem unplaced_step (s : State) (p q : Nat) (c : CodePoint) :
    unplaced (step s.unplaced q c) = unplaced (step s p c) := by
  obtain ⟨mode, scopes⟩ := s
  cases mode with
  | value mayClose =>
      simp only [step, State.unplaced, Mode.unplaced]
      split
      next => rfl
      next =>
        split
        next => rfl
        next => exact unplaced_beginValue scopes q p c
  | key | colon | string | escape | hex | minus =>
      simp only [step, State.unplaced, Mode.unplaced]
      repeat' split
      all_goals rfl
  | word start v rest =>
      simp only [step, State.unplaced, Mode.unplaced]
      split
      next => exact unplaced_stepAfter v scopes q p c
      next =>
        repeat' split
        all_goals rfl
  | number n phase =>
      simp only [step, State.unplaced, Mode.unplaced]
      split
      next d hd =>
        cases phase <;> first | rfl | exact unplaced_endNumber ..
      next hd =>
        cases phase <;> simp only [NumberPhase.unplaced, stepNumber]
        all_goals
          repeat' split
          all_goals first | rfl | exact unplaced_endNumber .. | exact unplaced_giveUpNumber ..
  | after v => exact unplaced_stepAfter v scopes q p c

theorem unplaced_run {s s' : State} (h : s.unplaced = s'.unplaced) (p q : Nat) (t : Text) :
    unplaced (run s p t) = unplaced (run s' q t) := by
  induction t generalizing s s' p q with
  | nil => simp only [run, unplaced, h]
  | cons c r ih =>
      have hstep : unplaced (step s p c) = unplaced (step s' q c) := by
        rw [← unplaced_step s p 0, h, unplaced_step]
      simp only [run]
      cases hs : step s p c with
      | ok u =>
          cases hs' : step s' q c with
          | ok u' =>
              rw [hs, hs'] at hstep
              exact ih (Except.ok.inj hstep) (p + 1) (q + 1)
          | error e' => simp [hs, hs', unplaced] at hstep
      | error e =>
          cases hs' : step s' q c with
          | ok u' => simp [hs, hs', unplaced] at hstep
          | error e' => rwa [hs, hs'] at hstep

theorem exists_run {s u : State} {p : Nat} {t : Text} (h : run s p t = .ok u) (q : Nat) :
    ∃ u', run s q t = .ok u' ∧ u'.unplaced = u.unplaced := by
  have hrun := unplaced_run (rfl : s.unplaced = s.unplaced) q p t
  cases hu : run s q t with
  | ok u' =>
      rw [h, hu] at hrun
      exact ⟨u', rfl, Except.ok.inj hrun⟩
  | error e => simp [h, hu, unplaced] at hrun

end JsonnetPreview.Json
