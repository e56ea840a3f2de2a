import JsonnetPreview.Json.Error
import JsonnetPreview.Proofs.Json.Offset
import JsonnetPreview.Proofs.Json.Moves

namespace JsonnetPreview.Json

def State.Holds (s : State) (v : Json) : Prop := s.scopes = [] ∧ s.mode.value? = some v

theorem finish_eq_ok_iff {s : State} {p : Nat} {v : Json} : s.finish p = .ok v ↔ s.Holds v := by
  obtain ⟨mode, scopes⟩ := s
  have hwhole (w : Json) : (if scopes.isEmpty then .ok w else .error (.malformed .comma p) :
      Except Failure Json) = .ok v ↔ scopes = [] ∧ w = v := by
    cases scopes <;> simp
  cases mode with
  | value | key | colon | minus => simp [State.finish, State.Holds, Mode.value?]
  | string role start body =>
      cases body with
      | nil => simp [State.finish, State.Holds, Mode.value?]
      | cons u body => cases u <;> simp [State.finish, State.Holds, Mode.value?]
  | escape | hex => simp [State.finish, State.Holds, Mode.value?]
  | word start w rest =>
      cases rest with
      | nil => simpa [State.finish, State.Holds, Mode.value?] using hwhole w
      | cons r rest => simp [State.finish, State.Holds, Mode.value?]
  | number n phase =>
      cases hn : n.value with
      | error e =>
          simp [State.finish, State.Holds, Mode.value?, hn, bind, Except.bind, Except.toOption]
      | ok w =>
          have hw := hwhole w
          cases phase with
          | zero | whole | fraction | exponent =>
              simpa [State.finish, State.Holds, Mode.value?, NumberPhase.complete, hn, bind,
                Except.bind, Except.toOption] using hw
          | point | exponentMark | exponentSign =>
              simp [State.finish, State.Holds, Mode.value?, NumberPhase.complete, hn, bind,
                Except.bind]
  | after w => simpa [State.finish, State.Holds, Mode.value?] using hwhole w

theorem value?_unplaced (m : Mode) : m.unplaced.value? = m.value? := by
  cases m with
  | number n phase => cases phase <;> rfl
  | word start v rest => cases rest <;> rfl
  | value | key | colon | string | escape | hex | minus | after => rfl

theorem State.Holds.of_unplaced {s s' : State} {v : Json} (hs : s.Holds v)
    (h : s'.unplaced = s.unplaced) : s'.Holds v := by
  refine ⟨(congrArg State.scopes h).trans hs.1, ?_⟩
  have hmode : s'.mode.unplaced = s.mode.unplaced := congrArg State.mode h
  rw [← value?_unplaced, hmode, value?_unplaced]
  exact hs.2

theorem State.Holds.outline {s : State} {v : Json} (h : s.Holds v) : s.outline = {} := by
  simp only [State.outline, h.1, outline_of_value? h.2]
  rfl

theorem stepAfter_of_isBlank {c : CodePoint} (hc : c.isBlank) {v : Json} {scopes : List Scope}
    {p : Nat} {s' : State} (h : stepAfter v scopes p c = .ok s') : s' = ⟨.after v, scopes⟩ := by
  unfold stepAfter at h
  split at h
  next => cases h; rfl
  next =>
    split at h
    all_goals first | cases h; done | exact absurd hc (by decide)

variable [Stack]

def Reads (t : Text) (v : Json) : Prop := ∃ s, run start 0 t = .ok s ∧ s.Holds v

theorem Reads.run {t : Text} {v : Json} (h : Reads t v) (p : Nat) :
    ∃ s, Json.run start p t = .ok s ∧ s.Holds v := by
  obtain ⟨s, hs, hv⟩ := h
  obtain ⟨s', hs', hu⟩ := exists_run hs p
  exact ⟨s', hs', hv.of_unplaced hu⟩

theorem Reads.of_run {t : Text} {v : Json} {s : State} {p : Nat}
    (h : Json.run Json.start p t = .ok s) (hv : s.Holds v) : Reads t v := by
  obtain ⟨s', hs', hu⟩ := exists_run h 0
  exact ⟨s', hs', hv.of_unplaced hu⟩

theorem not_reads_byteOrderMark (r : Text) (v : Json) : ¬ Reads (.char '\uFEFF' :: r) v := by
  rintro ⟨s, hs, -⟩
  have hstep : step start 0 (.char '\uFEFF') = .error (.malformed .value 0) := rfl
  simp [Json.run, hstep] at hs

theorem read_eq_ok_iff {t : Text} {v : Json} : read t = .ok v ↔ Reads t v := by
  have hparse : read t = .ok v ↔ parse t = .ok v := by
    unfold read
    split
    next w hw => simp [hw]
    all_goals simp_all
  rw [hparse]
  unfold parse
  split
  next r => simp [not_reads_byteOrderMark]
  next =>
    unfold Reads
    cases run start 0 t with
    | error e => simp
    | ok s => simp [finish_eq_ok_iff]

section Blank

variable {c : CodePoint} {p : Nat} {s s' : State} {v : Json}

theorem beginValue_of_isBlank (hc : c.isBlank) (scopes : List Scope) :
    beginValue scopes p c = .error (.malformed .value p) := by
  unfold beginValue
  split
  case h_10 =>
    simp [(isDelimiter_of_isBlank hc).digit?]
  all_goals exact absurd hc (by decide)

theorem not_holds_of_step (hs : s.mode.Plain) (hq : s.outline.quoting ≠ .outside)
    (hc : c ≠ .char '"') (h : step s p c = .ok s') : ¬ s'.Holds v := by
  intro hv
  have hopen := Outline.quoting_step_ne_outside hq hc
  rw [← (fits_step hs h).2, hv.outline] at hopen
  exact hopen rfl

theorem holds_of_step_isBlank (hs : s.mode.Plain) (hc : c.isBlank) (h : step s p c = .ok s')
    (hv : s'.Holds v) : s.Holds v := by
  have hquote : c ≠ .char '"' := by
    rintro rfl
    exact absurd hc (by decide)
  obtain ⟨mode, scopes⟩ := s
  cases mode with
  | value mayClose =>
      simp only [step] at h
      split at h
      next => cases h; exact hv
      next =>
        split at h
        next => exact absurd hc (by decide)
        next =>
          rw [beginValue_of_isBlank hc] at h
          cases h
  | key done mayClose =>
      have hclose : c ≠ .char '\x7d' := by
        rintro rfl
        exact absurd hc (by decide)
      simp only [step, hquote, hclose] at h
      split at h
      next => cases h; exact hv
      next => simp at h
  | colon done key =>
      simp only [step] at h
      split at h
      next => cases h; exact hv
      next =>
        split at h
        next hcolon =>
          rw [hcolon] at hc
          exact absurd hc (by decide)
        next => cases h
  -- Within a string a blank is an element like any other, and the string goes on behind it.
  | string | escape | hex =>
      exact absurd hv (not_holds_of_step hs (by simp [State.outline, Mode.outline]) hquote h)
  | word | minus | number | after =>
      obtain ⟨w, hw⟩ := value?_of_step hs trivial (isDelimiter_of_isBlank hc) h
      rw [step_of_value? hw (isDelimiter_of_isBlank hc)] at h
      rw [stepAfter_of_isBlank hc h] at hv
      exact ⟨hv.1, hw.trans hv.2⟩

theorem run_start_isBlank {b : Text} (hb : Text.IsBlank b) (h : run start p b = .ok s) :
    s = start := by
  induction b generalizing p with
  | nil =>
      cases h
      rfl
  | cons c b ih =>
      obtain ⟨hc, hb⟩ := List.forall_mem_cons.1 hb
      obtain ⟨m, hm, h⟩ := run_cons_eq_ok.1 h
      have hstart : m = start := by
        simp only [step, start] at hm
        split at hm
        next =>
          cases hm
          rfl
        next =>
          rw [beginValue_of_isBlank hc] at hm
          cases hm
      exact ih hb (hstart ▸ h)

theorem holds_of_run_isBlank {b : Text} (hb : Text.IsBlank b) (hs : s.mode.Plain)
    (h : run s p b = .ok s') (hv : s'.Holds v) : s.Holds v := by
  induction b generalizing s p with
  | nil =>
      cases h
      exact hv
  | cons c b ih =>
      obtain ⟨hc, hb⟩ := List.forall_mem_cons.1 hb
      obtain ⟨m, hm, h⟩ := run_cons_eq_ok.1 h
      exact holds_of_step_isBlank hs hc hm (ih hb (fits_step hs hm).1 h)

theorem Reads.trim {t : Text} (h : Reads t v) : Reads (Text.trim t) v := by
  obtain ⟨b, b', hb, hb', ht⟩ := Text.exists_trim t
  obtain ⟨s', h, hv⟩ := h
  rw [ht] at h
  obtain ⟨m, hm, h⟩ := run_append_eq_ok.1 h
  obtain ⟨m', hm', h⟩ := run_append_eq_ok.1 h
  rw [run_start_isBlank hb hm] at hm'
  exact Reads.of_run hm' (holds_of_run_isBlank hb' (fits_run (s := start) trivial hm').1 h hv)

theorem Reads.ne_nil {t : Text} (h : Reads t v) : t ≠ [] := by
  rintro rfl
  obtain ⟨s, hs, hv⟩ := h
  cases hs
  cases hv.2

end Blank

end JsonnetPreview.Json
