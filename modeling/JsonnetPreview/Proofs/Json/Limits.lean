import JsonnetPreview.Proofs.Json.Items
import JsonnetPreview.Proofs.Json.Numbers
import JsonnetPreview.Proofs.Json.Readable

namespace JsonnetPreview.Json

/-- The length of the longest run of digits in a text, behind some digits. -/
def longestFrom (n : Nat) : Text → Nat
  | [] => n
  | c :: r => if (digit? c).isSome then longestFrom (n + 1) r else max n (longestFrom 0 r)

def longestNumeral (t : Text) : Nat := longestFrom 0 t

theorem le_longestFrom (n : Nat) (t : Text) : n ≤ longestFrom n t := by
  fun_induction longestFrom n t with
  | case1 => exact Nat.le_refl _
  | case2 n c r hc ih => omega
  | case3 n c r hc ih => exact Nat.le_max_left ..

theorem longestFrom_mono {m n : Nat} (h : m ≤ n) (t : Text) :
    longestFrom m t ≤ longestFrom n t := by
  induction t generalizing m n with
  | nil => exact h
  | cons c r ih =>
      rw [longestFrom, longestFrom]
      split
      · exact ih (Nat.succ_le_succ h)
      · omega

theorem longestFrom_le_append (n : Nat) (t u : Text) :
    longestFrom n t ≤ longestFrom n (t ++ u) := by
  induction t generalizing n with
  | nil => exact le_longestFrom n u
  | cons c r ih =>
      rw [List.cons_append, longestFrom, longestFrom]
      split
      · exact ih _
      · have hrest := ih 0
        omega

variable {p : Nat} {c : CodePoint} {s s' : State} {t : Text} {v : Json}

theorem exists_of_run_eq_error [Stack] {e : Failure} (h : run s p t = .error e) :
    ∃ a c b m, t = a ++ c :: b ∧ run s p a = .ok m ∧ step m (p + a.length) c = .error e := by
  induction t generalizing s p with
  | nil => cases h
  | cons c r ih =>
      rw [run] at h
      split at h
      next m hm =>
        obtain ⟨a, d, b, m', rfl, ha, hd⟩ := ih h
        refine ⟨c :: a, d, b, m', rfl, run_cons_eq_ok.2 ⟨m, hm, ha⟩, ?_⟩
        rw [← hd, List.length_cons, Nat.add_assoc, Nat.add_comm 1]
      next e' he =>
        cases h
        exact ⟨[], c, r, s, rfl, rfl, he⟩

def Mode.digits : Mode → Nat
  | .number n _ => n.whole.length
  | _ => 0

def Mode.pending : Mode → Nat
  | .number n .zero | .number n .whole => n.whole.length
  | _ => 0

theorem Mode.pending_le_digits (m : Mode) : m.pending ≤ m.digits := by
  unfold Mode.pending
  split
  · exact Nat.le_refl _
  · exact Nat.le_refl _
  · exact Nat.zero_le _

/-- What a step does to the digits. -/
structure Counts (c : CodePoint) (m m' : Mode) : Prop where
  digits : m'.digits ≤ max m.digits m'.pending
  pending : m'.pending ≤ if (digit? c).isSome then m.pending + 1 else 0

theorem counts_of_digits_eq_zero {m m' : Mode} (h : m'.digits = 0) : Counts c m m' := by
  have hpending := m'.pending_le_digits
  exact ⟨by omega, by omega⟩

theorem digits_stepAfter {scopes : List Scope} (h : stepAfter v scopes p c = .ok s') :
    s'.mode.digits = 0 := by
  unfold stepAfter at h
  repeat' split at h
  all_goals cases h
  all_goals rfl

theorem counts_endNumber {n : NumberText} {phase : NumberPhase} {scopes : List Scope}
    (h : endNumber n scopes p c = .ok s') : Counts c (.number n phase) s'.mode := by
  obtain ⟨v, -, h⟩ := endNumber_eq_ok h
  exact counts_of_digits_eq_zero (digits_stepAfter h)

theorem counts_stepNumber {n : NumberText} {phase : NumberPhase} {scopes : List Scope}
    (h : stepNumber n phase scopes p c = .ok s') : Counts c (.number n phase) s'.mode := by
  cases phase with
  | zero | whole | fraction =>
      simp only [stepNumber] at h
      repeat' split at h
      all_goals first | exact counts_endNumber h | cases h
      all_goals exact ⟨Nat.le_max_left .., Nat.zero_le _⟩
  | exponent => exact counts_endNumber h
  | exponentMark mark =>
      simp only [stepNumber] at h
      repeat' split at h
      all_goals first | exact absurd h giveUpNumber_ne_ok | cases h
      all_goals exact ⟨Nat.le_max_left .., Nat.zero_le _⟩
  | point mark | exponentSign mark => exact absurd h giveUpNumber_ne_ok

theorem counts_stepDigit {n : NumberText} {phase : NumberPhase} {scopes : List Scope} {d : Nat}
    (hd : digit? c = some d) (h : stepDigit n phase scopes p c d = .ok s') :
    Counts c (.number n phase) s'.mode := by
  cases phase with
  | zero => exact counts_endNumber h
  | whole =>
      cases h
      exact ⟨Nat.le_max_right .., by simp [Mode.pending, hd]⟩
  | point | fraction | exponentMark | exponentSign | exponent =>
      cases h
      exact ⟨Nat.le_max_left .., Nat.zero_le _⟩

theorem counts_beginValue [Stack] {scopes : List Scope} {m : Mode}
    (h : beginValue scopes p c = .ok s') : Counts c m s'.mode := by
  unfold beginValue at h
  split at h
  case h_2 | h_3 =>
    obtain ⟨-, rfl⟩ := openIn_eq_ok_iff.1 h
    exact counts_of_digits_eq_zero rfl
  case h_10 =>
    split at h
    case h_3 => cases h
    case h_1 hd | h_2 hd =>
      cases h
      exact ⟨Nat.le_max_right .., by simp [Mode.pending, hd]⟩
  all_goals
    cases h
    exact counts_of_digits_eq_zero rfl

theorem digits_closeString (role : Role) (body : List Unit16) (scopes : List Scope) :
    (closeString role body scopes).mode.digits = 0 := by
  cases role <;> rfl

theorem counts_step [Stack] (h : step s p c = .ok s') : Counts c s.mode s'.mode := by
  obtain ⟨mode, scopes⟩ := s
  cases mode with
  | value mayClose =>
      simp only [step] at h
      repeat' split at h
      next =>
        cases h
        exact counts_of_digits_eq_zero rfl
      next =>
        cases h
        exact counts_of_digits_eq_zero rfl
      next => exact counts_beginValue h
  | key | colon | escape | hex =>
      simp only [step] at h
      repeat' split at h
      all_goals first | cases h; exact counts_of_digits_eq_zero rfl | cases h
  | string role start body =>
      simp only [step] at h
      repeat' split at h
      all_goals cases h
      · exact counts_of_digits_eq_zero (digits_closeString role body scopes)
      all_goals exact counts_of_digits_eq_zero rfl
  | word start v rest =>
      simp only [step] at h
      repeat' split at h
      next => exact counts_of_digits_eq_zero (digits_stepAfter h)
      all_goals cases h
      all_goals exact counts_of_digits_eq_zero rfl
  | minus start =>
      simp only [step] at h
      repeat' split at h
      all_goals cases h
      next hd => exact ⟨Nat.le_max_right .., by simp [Mode.pending, hd]⟩
      next hd => exact ⟨Nat.le_max_right .., by simp [Mode.pending, hd]⟩
      next => exact counts_of_digits_eq_zero rfl
  | number n phase =>
      simp only [step] at h
      split at h
      next hd => exact counts_stepDigit hd h
      next => exact counts_stepNumber h
  | after v => exact counts_of_digits_eq_zero (digits_stepAfter h)

theorem digits_of_run [Stack] (h : run s p t = .ok s') :
    s'.mode.digits ≤ max s.mode.digits (longestFrom s.mode.pending t) := by
  induction t generalizing s p with
  | nil =>
      cases h
      exact Nat.le_max_left ..
  | cons c r ih =>
      obtain ⟨m, hm, h⟩ := run_cons_eq_ok.1 h
      obtain ⟨hdigits, hpending⟩ := counts_step hm
      have hrest := ih h
      have hfrom := longestFrom_mono hpending r
      have hle := le_longestFrom m.mode.pending r
      rw [longestFrom]
      by_cases hc : (digit? c).isSome
      · rw [if_pos hc] at hfrom hpending ⊢
        omega
      · rw [if_neg hc] at hfrom hpending ⊢
        omega

/-- Why a step fails. -/
inductive Fails [Stack] (c : CodePoint) : State → Failure → Prop
  | malformed {s : State} (complaint : Complaint) (offset : Nat) :
      Fails c s (.malformed complaint offset)
  | numeral {n : NumberText} {phase : NumberPhase} {scopes : List Scope} {cause : NumeralTooLong}
      (h : n.value = .error (.numeralTooLong cause)) :
      Fails c ⟨.number n phase, scopes⟩ (.numeralTooLong cause)
  | nested {mayClose : Bool} {scopes : List Scope} (k : Container) (hc : c = .char k.opener)
      (h : Stack.reading ≤ scopes.length) :
      Fails c ⟨.value mayClose, scopes⟩ (.nestedTooDeep (.reading k))

theorem malformed_of_stepAfter {scopes : List Scope} {e : Failure}
    (h : stepAfter v scopes p c = .error e) :
    ∃ complaint offset, e = .malformed complaint offset := by
  unfold stepAfter at h
  repeat' split at h
  all_goals cases h
  exact ⟨_, _, rfl⟩

theorem digits_of_value {n : NumberText} {e : Failure} (h : n.value = .error e) :
    ∃ cause : NumeralTooLong, e = .numeralTooLong cause ∧
      Numeral.digitLimit < cause.digits ∧ cause.digits = n.whole.length := by
  rw [NumberText.value] at h
  split at h
  next => cases h
  next cause hcause =>
    cases h
    refine ⟨cause, rfl, ?_⟩
    rw [NumberText.value?] at hcause
    split at hcause
    next =>
      rw [Numeral.value?] at hcause
      split at hcause
      next hlimit =>
        cases hcause
        rw [List.length_reverse] at hlimit ⊢
        exact ⟨hlimit, rfl⟩
      next => cases hcause
    next => split at hcause <;> cases hcause

theorem fails_of_value [Stack] {n : NumberText} {phase : NumberPhase} {scopes : List Scope}
    {e : Failure} (h : n.value = .error e) : Fails c ⟨.number n phase, scopes⟩ e := by
  obtain ⟨cause, rfl, -⟩ := digits_of_value h
  exact .numeral h

theorem fails_of_endNumber [Stack] {n : NumberText} {phase : NumberPhase} {scopes : List Scope}
    {e : Failure} (h : endNumber n scopes p c = .error e) :
    Fails c ⟨.number n phase, scopes⟩ e := by
  cases hn : n.value with
  | error e' =>
      simp only [endNumber, hn, bind, Except.bind] at h
      cases h
      exact fails_of_value hn
  | ok v =>
      rw [endNumber_of_value hn] at h
      obtain ⟨complaint, offset, rfl⟩ := malformed_of_stepAfter h
      exact .malformed complaint offset

theorem fails_of_giveUpNumber [Stack] {n : NumberText} {phase : NumberPhase} {scopes : List Scope}
    {mark : Nat} {e : Failure} (h : giveUpNumber n scopes mark = .error e) :
    Fails c ⟨.number n phase, scopes⟩ e := by
  unfold giveUpNumber at h
  cases hn : n.value with
  | error e' =>
      simp only [hn, bind, Except.bind] at h
      cases h
      exact fails_of_value hn
  | ok v =>
      simp only [hn, bind, Except.bind] at h
      cases h
      exact .malformed _ _

theorem fails_of_stepNumber [Stack] {n : NumberText} {phase : NumberPhase} {scopes : List Scope}
    {e : Failure} (h : stepNumber n phase scopes p c = .error e) :
    Fails c ⟨.number n phase, scopes⟩ e := by
  cases phase with
  | zero | whole | fraction =>
      simp only [stepNumber] at h
      repeat' split at h
      all_goals first | exact fails_of_endNumber h | cases h
  | exponent => exact fails_of_endNumber h
  | exponentMark mark =>
      simp only [stepNumber] at h
      repeat' split at h
      all_goals first | exact fails_of_giveUpNumber h | cases h
  | point mark | exponentSign mark => exact fails_of_giveUpNumber h

theorem fails_of_stepDigit [Stack] {n : NumberText} {phase : NumberPhase} {scopes : List Scope}
    {d : Nat} {e : Failure} (h : stepDigit n phase scopes p c d = .error e) :
    Fails c ⟨.number n phase, scopes⟩ e := by
  cases phase with
  | zero => exact fails_of_endNumber h
  | whole | point | fraction | exponentMark | exponentSign | exponent => cases h

theorem fails_of_openIn [Stack] {mayClose : Bool} {scopes : List Scope} {k : Container} {e : Failure}
    (h : openIn scopes k s = .error e) :
    Fails (.char k.opener) ⟨.value mayClose, scopes⟩ e := by
  unfold openIn at h
  split at h
  next => cases h
  next hlimit =>
    cases h
    exact .nested k rfl (Nat.not_lt.1 hlimit)

theorem fails_of_beginValue [Stack] {mayClose : Bool} {scopes : List Scope} {e : Failure}
    (h : beginValue scopes p c = .error e) : Fails c ⟨.value mayClose, scopes⟩ e := by
  unfold beginValue at h
  split at h
  case h_2 | h_3 => exact fails_of_openIn h
  case h_10 =>
    split at h
    all_goals cases h
    exact .malformed _ _
  all_goals cases h

theorem fails_of_step [Stack] {e : Failure} (h : step s p c = .error e) : Fails c s e := by
  obtain ⟨mode, scopes⟩ := s
  cases mode with
  | value mayClose =>
      simp only [step] at h
      repeat' split at h
      next => cases h
      next => cases h
      next => exact fails_of_beginValue h
  | key | colon | string | escape | hex | minus =>
      simp only [step] at h
      repeat' split at h
      all_goals cases h
      all_goals exact .malformed _ _
  | word start v rest =>
      simp only [step] at h
      repeat' split at h
      next =>
        obtain ⟨complaint, offset, rfl⟩ := malformed_of_stepAfter h
        exact .malformed complaint offset
      all_goals cases h
      exact .malformed _ _
  | number n phase =>
      simp only [step] at h
      split at h
      next => exact fails_of_stepDigit h
      next => exact fails_of_stepNumber h
  | after v =>
      obtain ⟨complaint, offset, rfl⟩ := malformed_of_stepAfter h
      exact .malformed complaint offset

theorem fails_of_finish {e : Failure} (h : s.finish p = .error e) :
    (∃ complaint offset, e = .malformed complaint offset) ∨
      ∃ n phase, s.mode = .number n phase ∧ n.value = .error e := by
  have hwhole {scopes : List Scope} {w : Json} {e : Failure}
      (h : (if scopes.isEmpty then .ok w else .error (.malformed .comma p) :
        Except Failure Json) = .error e) : ∃ complaint offset, e = .malformed complaint offset := by
    split at h
    · cases h
    · cases h
      exact ⟨_, _, rfl⟩
  obtain ⟨mode, scopes⟩ := s
  cases mode with
  | value | key | colon | escape | hex | minus =>
      cases h
      exact .inl ⟨_, _, rfl⟩
  | string role start body =>
      left
      rcases body with _ | ⟨_ | _, body⟩
      all_goals
        cases h
        exact ⟨_, _, rfl⟩
  | word start v rest =>
      simp only [State.finish] at h
      split at h
      next => exact .inl (hwhole h)
      next =>
        cases h
        exact .inl ⟨_, _, rfl⟩
  | number n phase =>
      cases hn : n.value with
      | error e' =>
          simp only [State.finish, hn, bind, Except.bind] at h
          exact .inr ⟨n, phase, rfl, hn.trans (by cases h; rfl)⟩
      | ok v =>
          left
          simp only [State.finish, hn, bind, Except.bind] at h
          split at h
          all_goals first | exact hwhole h | cases h; exact ⟨_, _, rfl⟩
  | after v => exact .inl (hwhole h)

theorem longest_of_run [Stack] {n : NumberText} {phase : NumberPhase} {scopes : List Scope}
    {e : Failure} {a b : Text} (h : run start p a = .ok ⟨.number n phase, scopes⟩)
    (hn : n.value = .error e) : ∃ cause : NumeralTooLong, e = .numeralTooLong cause ∧
      Numeral.digitLimit < cause.digits ∧ cause.digits ≤ longestNumeral (a ++ b) := by
  obtain ⟨cause, rfl, hlimit, hlength⟩ := digits_of_value hn
  have hdigits : n.whole.length ≤ max 0 (longestFrom 0 a) := digits_of_run h
  have hle := longestFrom_le_append 0 a b
  exact ⟨cause, rfl, hlimit, by rw [longestNumeral]; omega⟩

theorem lt_nesting_of_run [Stack] {mayClose : Bool} {scopes : List Scope} {a b : Text} {k : Container}
    (h : run start p a = .ok ⟨.value mayClose, scopes⟩) :
    scopes.length < nesting (a ++ .char k.opener :: b) := by
  have houtline : ⟨.outside, scopes.length⟩ = a.foldl Outline.step {} :=
    (fits_run (s := start) trivial h).2
  have hopen : (Outline.step ⟨.outside, scopes.length⟩ (.char k.opener)).depth =
      scopes.length + 1 := by
    cases k <;> rfl
  have hle := Outline.depth_le_deepest
    (Outline.step ⟨.outside, scopes.length⟩ (.char k.opener)) b
  rw [nesting, Outline.deepest_append, ← houtline, Outline.deepest]
  omega

/-- Why a text is not read: it is malformed, or a numeral or a bracket stands in it that the reader
gives up on. -/
theorem limits_of_parse [Stack] {e : Failure} (h : parse t = .error e) :
    (∃ complaint offset, e = .malformed complaint offset) ∨
    (∃ cause : NumeralTooLong, e = .numeralTooLong cause ∧
      Numeral.digitLimit < cause.digits ∧ cause.digits ≤ longestNumeral t) ∨
    ∃ k, e = .nestedTooDeep (.reading k) ∧ Stack.reading < nesting t := by
  unfold parse at h
  split at h
  next =>
    cases h
    exact .inl ⟨_, _, rfl⟩
  next =>
    split at h
    next s hs =>
      rcases fails_of_finish h with hmalformed | ⟨n, phase, hmode, hn⟩
      · exact .inl hmalformed
      · obtain ⟨mode, scopes⟩ := s
        cases hmode
        have hlongest := longest_of_run (b := []) hs hn
        rw [List.append_nil] at hlongest
        exact .inr (.inl hlongest)
    next e' he =>
      cases h
      obtain ⟨a, c, b, m, rfl, ha, hc⟩ := exists_of_run_eq_error he
      cases fails_of_step hc with
      | malformed complaint offset => exact .inl ⟨complaint, offset, rfl⟩
      | numeral hn => exact .inr (.inl (longest_of_run ha hn))
      | nested k hopen hlimit =>
          subst hopen
          exact .inr (.inr ⟨k, rfl, Nat.lt_of_le_of_lt hlimit (lt_nesting_of_run ha)⟩)

theorem limits_of_read [Stack] {e : ReadError} (h : read t = .error e) :
    (∃ m, e = .malformed m) ∨
    (∃ cause : NumeralTooLong, e = .numeralTooLong cause ∧
      Numeral.digitLimit < cause.digits ∧ cause.digits ≤ longestNumeral t) ∨
    ∃ k, e = .nestedTooDeep (.reading k) ∧ Stack.reading < nesting t := by
  unfold read at h
  split at h
  next => cases h
  next =>
    cases h
    exact .inl ⟨_, rfl⟩
  next cause hparse =>
    cases h
    rcases limits_of_parse hparse with ⟨_, _, he⟩ | ⟨cause', he, hlimit⟩ | ⟨k, he, -⟩
    · cases he
    · cases he
      exact .inr (.inl ⟨_, rfl, hlimit⟩)
    · cases he
  next cause hparse =>
    cases h
    rcases limits_of_parse hparse with ⟨_, _, he⟩ | ⟨cause', he, -⟩ | ⟨k, he, hlimit⟩
    · cases he
    · cases he
    · cases he
      exact .inr (.inr ⟨k, rfl, hlimit⟩)

theorem parse_of_run [Stack] (h : run start 0 t = .ok s) : parse t = s.finish t.length := by
  unfold parse
  split
  next r =>
    have hmark : step start 0 (.char '\uFEFF') = .error (.malformed .value 0) := rfl
    simp [run, hmark] at h
  next => rw [h]

theorem read_text_of_long [Stack] {w : Numeral} (hw : IsWhole w) (h : Numeral.digitLimit < w.length) :
    read w.text = .error (.numeralTooLong ⟨w.length⟩) := by
  have hrun : run start 0 w.text = .ok (wholeRead false w []) := run_whole false hw false
  have hvalue : NumberText.value { negative := false, whole := w.reverse } =
      .error (.numeralTooLong ⟨w.length⟩) := by
    simp [NumberText.value, NumberText.value?, Numeral.value?, h, bind, Except.bind]
  have hparse : parse w.text = .error (.numeralTooLong ⟨w.length⟩) := by
    rw [parse_of_run hrun, wholeRead, State.finish]
    simp only [hvalue, bind, Except.bind]
  rw [read, hparse]

theorem heightOfItems_le {items : List Json} {n : Nat} (h : ∀ v ∈ items, v.height ≤ n) :
    heightOfItems items ≤ n + 1 := by
  induction items with
  | nil => exact Nat.zero_le _
  | cons v r ih =>
      obtain ⟨hv, hr⟩ := List.forall_mem_cons.1 h
      have hrest := ih hr
      rw [heightOfItems]
      omega

theorem heightOfMembers_le {members : List (Text × Json)} {n : Nat}
    (h : ∀ e ∈ members, e.2.height ≤ n) : heightOfMembers members ≤ n + 1 := by
  induction members with
  | nil => exact Nat.zero_le _
  | cons e r ih =>
      obtain ⟨hv, hr⟩ := List.forall_mem_cons.1 h
      have hrest := ih hr
      rw [heightOfMembers]
      omega

theorem Readable.height_le {style : Style} {room : Nat} (h : Readable style room v) :
    v.height ≤ room := by
  induction h with
  | null | bool | int | float | str => exact Nat.zero_le _
  | arr _ ih => exact heightOfItems_le ih
  | obj _ _ _ ih => exact heightOfMembers_le ih

theorem scopesReadable_replicate [Stack] {style : Style} {n : Nat} (h : n ≤ Stack.reading) :
    ScopesReadable style (Stack.reading - n) (List.replicate n (.items [])) := by
  induction n with
  | zero => exact .nil
  | succ n ih =>
      have hroom : Stack.reading - (n + 1) + 1 = Stack.reading - n := by omega
      exact .cons (List.forall_mem_nil _) (hroom ▸ ih (by omega))

/-- A value is no higher than its text is nested. -/
theorem height_le_nesting [Stack] (h : read t = .ok v) : v.height ≤ nesting t := by
  let style : Style := ⟨false, false⟩
  by_cases hlimit : nesting t ≤ Stack.reading
  · -- Inside of so many arrays that the reader has just room enough, it comes to the same value.
    obtain ⟨s, hs, hscopes, hv⟩ := read_eq_ok_iff.1 h
    let outer : List Scope := .replicate (Stack.reading - nesting t) (.items [])
    have hunder : run (start.under outer) 0 t = .ok (s.under outer) :=
      run_under (s := start) outer trivial hs (by
        show nesting t + outer.length ≤ Stack.reading
        rw [List.length_replicate]
        omega)
    have hroom : Stack.reading - (Stack.reading - nesting t) = nesting t := by omega
    have houter : ScopesReadable style (nesting t) outer :=
      hroom ▸ scopesReadable_replicate (Nat.sub_le _ _)
    have hstart : (start.under outer).Readable style := ⟨nesting t, houter, trivial⟩
    obtain ⟨room, hreadable, hmode⟩ := readable_run hstart nofun hunder
    have hsame : room = nesting t := by
      have hadd := hreadable.room_add
      have hadd' := houter.room_add
      simp only [State.under, hscopes, List.nil_append] at hadd
      omega
    exact hsame ▸ (readable_of_value? hmode hv).height_le
  · have hreadable : Readable style Stack.reading v := readable_of_read nofun h
    exact Nat.le_trans hreadable.height_le (Nat.le_of_not_le hlimit)

theorem writesJson_of_height_le (h : v.height ≤ depthLimit + 1) : Stack.writesJson v :=
  decide_eq_true (Nat.lt_of_le_of_lt h (by decide))

theorem writesJson_of_read (h : read t = .ok v) : Stack.writesJson v := by
  have hreadable : Readable ⟨false, false⟩ depthLimit v := readable_of_read nofun h
  exact writesJson_of_height_le (Nat.le_succ_of_le hreadable.height_le)

end JsonnetPreview.Json
