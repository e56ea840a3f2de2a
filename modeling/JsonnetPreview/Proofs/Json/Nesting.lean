import JsonnetPreview.Proofs.Json.Moves

namespace JsonnetPreview.Json

variable {p : Nat} {c : CodePoint} {s s' : State}

/-- The same state inside of more arrays and objects. -/
def State.under (s : State) (outer : List Scope) : State := ⟨s.mode, s.scopes ++ outer⟩

theorem opened_under (scopes outer : List Scope) (k : Container) :
    (opened scopes k).under outer = opened (scopes ++ outer) k := by
  cases k <;> rfl

theorem depth_opened (scopes : List Scope) (k : Container) :
    (opened scopes k).outline.depth = scopes.length + 1 := by
  cases k <;> rfl

theorem stepAfter_under {v : Json} {scopes : List Scope} (h : stepAfter v scopes p c = .ok s')
    (outer : List Scope) :
    stepAfter v (scopes ++ outer) p c = .ok (s'.under outer) ∧
      s'.outline.depth ≤ scopes.length := by
  unfold stepAfter at h
  split at h
  next hc =>
    cases h
    exact ⟨by simp [stepAfter, hc, State.under], Nat.le_refl _⟩
  next hc =>
    split at h
    case h_5 => cases h
    all_goals
      cases h
      exact ⟨rfl, by simp [State.outline, Mode.outline]⟩

section Under

variable {wide : Stack} [Stack] {outer : List Scope}

theorem step_under (h : @step wide s p c = .ok s')
    (hlimit : s'.outline.depth + outer.length ≤ Stack.reading) :
    step (s.under outer) p c = .ok (s'.under outer) := by
  cases @moves_of_step _ _ _ _ wide h with
  | waits hc hm hstep | within hstep => exact hstep _ _
  | behind hv hc h => exact (step_of_value? hv hc p).trans (stepAfter_under h outer).1
  | @opens mayClose scopes k hc h =>
      subst hc
      rw [depth_opened] at hlimit
      rw [opened_under]
      refine (step_opener mayClose _ p k).trans (openIn_eq_ok_iff.2 ⟨?_, rfl⟩)
      simp only [List.length_append]
      omega
  | closes hc =>
      subst hc
      rfl
  | names hc =>
      subst hc
      rfl

theorem run_under (outer : List Scope) {t : Text} (hs : s.mode.Plain)
    (h : @run wide s p t = .ok s')
    (hlimit : s.outline.deepest t + outer.length ≤ Stack.reading) :
    run (s.under outer) p t = .ok (s'.under outer) := by
  induction t generalizing s p with
  | nil =>
      cases h
      rfl
  | cons c r ih =>
      obtain ⟨m, hm, h⟩ := (@run_cons_eq_ok _ _ _ _ wide _).1 h
      obtain ⟨hplain, houtline⟩ := @fits_step _ _ _ _ wide hs hm
      rw [Outline.deepest, ← houtline] at hlimit
      have hdepth := m.outline.depth_le_deepest r
      refine run_cons_eq_ok.2 ⟨_, step_under hm ?_, ih hplain h ?_⟩ <;> omega

end Under

end JsonnetPreview.Json
