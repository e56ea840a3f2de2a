import JsonnetPreview.Proofs.Stream.Lines

namespace JsonnetPreview.Json

variable {s s' : State} {p : Nat} {t : Text}

theorem step_return [Stack] (hs : s.mode.Plain) (p : Nat) :
    step s p (.char '\r') = step s p (.char '\n') := by
  obtain ⟨mode, scopes⟩ := s
  cases mode with
  | value | key | colon | string | escape | minus | after => rfl
  | hex role start body digits => simp [step, hexDigit?]
  | word start v rest =>
      cases rest with
      | nil => rfl
      | cons r rest =>
          have hr : r.isAlpha := hs r List.mem_cons_self
          have hne {x : Char} (hx : x.isAlpha = false) : CodePoint.char x ≠ .char r := by
            rintro ⟨⟩
            rw [hr] at hx
            cases hx
          simp [step, hne]
  | number n phase => cases phase <;> rfl

theorem step_newline_of_atLineStart [Stack] (hs : s.mode.AtLineStart) (p : Nat) :
    step s p (.char '\n') = .ok s := by
  obtain ⟨mode, scopes⟩ := s
  cases mode with
  | value | key | colon | after => rfl
  | string | escape | hex | word | minus | number => exact hs.elim

theorem unplaced_run_unifyNewlines [Stack] (hs : s.mode.Plain) (p : Nat) (t : Text) :
    unplaced (run s p t.unifyNewlines) = unplaced (run s p t) := by
  fun_induction Text.unifyNewlines t generalizing s p with
  | case1 => rfl
  | case2 r ih =>
      rw [run, run, step_return hs]
      cases hstep : step s p (.char '\n') with
      | error e => rfl
      | ok u =>
          have hu := atLineStart_of_newline hs hstep
          have hskip : run u (p + 1) (.char '\n' :: r) = run u (p + 1 + 1) r := by
            rw [run, step_newline_of_atLineStart hu]
          calc unplaced (run u (p + 1) (Text.unifyNewlines r))
              = unplaced (run u (p + 1) r) := ih (fits_step hs hstep).1 (p + 1)
            _ = unplaced (run u (p + 1 + 1) r) := unplaced_run rfl _ _ r
            _ = unplaced (run u (p + 1) (.char '\n' :: r)) := congrArg unplaced hskip.symm
  | case3 r _ ih =>
      rw [run, run, step_return hs]
      cases hstep : step s p (.char '\n') with
      | error e => rfl
      | ok u => exact ih (fits_step hs hstep).1 (p + 1)
  | case4 c r _ _ ih =>
      rw [run, run]
      cases hstep : step s p c with
      | error e => rfl
      | ok u => exact ih (fits_step hs hstep).1 (p + 1)

theorem finish_unplaced (s : State) (p : Nat) :
    (s.unplaced.finish 0).mapError Failure.unplaced = (s.finish p).mapError Failure.unplaced := by
  obtain ⟨mode, scopes⟩ := s
  have hwhole (v : Json) (p q : Nat) :
      (if scopes.isEmpty then .ok v else .error (.malformed .comma p) :
        Except Failure Json).mapError Failure.unplaced =
      (if scopes.isEmpty then .ok v else .error (.malformed .comma q) :
        Except Failure Json).mapError Failure.unplaced := by
    split <;> rfl
  cases mode with
  | value | key | colon | escape | hex | minus => rfl
  | string role start body =>
      cases body with
      | nil => rfl
      | cons u body => cases u <;> rfl
  | word start v rest =>
      cases rest with
      | nil => exact hwhole v 0 p
      | cons r rest => rfl
  | number n phase =>
      simp only [State.finish, State.unplaced, Mode.unplaced]
      cases n.value with
      | error e => rfl
      | ok v =>
          cases phase with
          | zero | whole | fraction | exponent => exact hwhole v 0 p
          | point | exponentMark | exponentSign => rfl
  | after v => exact hwhole v 0 p

theorem parse_of_head?_ne [Stack] (h : t.head? ≠ some (.char '\uFEFF')) :
    parse t = (run start 0 t).bind fun s => s.finish t.length := by
  unfold parse
  split
  next => exact absurd rfl h
  next => cases run start 0 t <;> rfl

theorem head?_unifyNewlines (t : Text) :
    t.unifyNewlines.head? = some (.char '\uFEFF') ↔ t.head? = some (.char '\uFEFF') := by
  fun_cases Text.unifyNewlines t with
  | case1 => rfl
  | case2 | case3 | case4 => simp

theorem parse_unifyNewlines [Stack] (t : Text) :
    (parse t.unifyNewlines).mapError Failure.unplaced = (parse t).mapError Failure.unplaced := by
  by_cases h : t.head? = some (.char '\uFEFF')
  · obtain ⟨r, rfl⟩ := List.head?_eq_some_iff.1 h
    rfl
  · rw [parse_of_head?_ne h, parse_of_head?_ne (mt (head?_unifyNewlines t).1 h)]
    have hrun := unplaced_run_unifyNewlines (s := start) trivial 0 t
    cases hs : run start 0 t.unifyNewlines with
    | error e =>
        cases hs' : run start 0 t with
        | error e' =>
            rw [hs, hs'] at hrun
            exact congrArg Except.error (Except.error.inj hrun)
        | ok s' => simp [hs, hs', unplaced] at hrun
    | ok s =>
        cases hs' : run start 0 t with
        | error e' => simp [hs, hs', unplaced] at hrun
        | ok s' =>
            rw [hs, hs'] at hrun
            have hunplaced : s.unplaced = s'.unplaced := Except.ok.inj hrun
            exact (finish_unplaced s _).symm.trans (hunplaced ▸ finish_unplaced s' _)

/-- Whatever line ends a text has, the same value is read from it, or it is refused for the same
reason, up to the place of what is malformed. -/
theorem read_unifyNewlines_iff [Stack] {x : Except ReadError Json}
    (hx : ∀ m, x ≠ .error (.malformed m)) :
    read t.unifyNewlines = x ↔ read t = x := by
  have hparse := parse_unifyNewlines t
  have hne (m : Malformed) : .error (.malformed m) = x ↔ False := iff_of_false (hx m ·.symm) id
  unfold read
  cases hu : parse t.unifyNewlines with
  | ok v =>
      cases ht : parse t with
      | ok w =>
          rw [hu, ht] at hparse
          rw [Except.ok.inj hparse]
      | error e => simp [hu, ht, Except.mapError] at hparse
  | error e =>
      cases ht : parse t with
      | ok w => simp [hu, ht, Except.mapError] at hparse
      | error e' =>
          rw [hu, ht] at hparse
          have he : e.unplaced = e'.unplaced := Except.error.inj hparse
          cases e <;> cases e' <;> cases he <;> simp only [hne]

theorem exists_malformed_unifyNewlines [Stack] {m : Malformed} (h : read t = .error (.malformed m)) :
    ∃ m', read t.unifyNewlines = .error (.malformed m') := by
  have hother {x : Except ReadError Json} (hx : ∀ m, x ≠ .error (.malformed m)) :
      read t.unifyNewlines ≠ x := fun hu => hx m ((read_unifyNewlines_iff hx).1 hu ▸ h)
  cases hu : read t.unifyNewlines with
  | ok v => exact absurd hu (hother nofun)
  | error e =>
      cases e with
      | malformed m' => exact ⟨m', rfl⟩
      | numeralTooLong | nestedTooDeep => exact absurd hu (hother nofun)

end JsonnetPreview.Json
