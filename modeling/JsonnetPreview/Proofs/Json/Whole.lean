import JsonnetPreview.Proofs.Json.Items

namespace JsonnetPreview.Json

namespace Outline

def edges : List Char := [',', ']', '\x7d']

def whole (o : Outline) : Text → Bool
  | [] => o = {}
  | c :: r => !(o = {} && edges.any (c = .char ·)) && (o.step c).whole r

theorem whole_cons {o : Outline} {c : CodePoint} {r : Text} : o.whole (c :: r) ↔
    (o = {} → ∀ x ∈ edges, c ≠ .char x) ∧ (o.step c).whole r := by
  simp only [whole, Bool.and_eq_true, Bool.not_eq_true', Bool.and_eq_false_imp, List.any_eq_false,
    decide_eq_true_eq]

end Outline

/-- The text closes all brackets and strings that it opens, and has no comma and no closing bracket
outside of them. -/
def isWhole (t : Text) : Bool := Outline.whole {} t

variable {p : Nat} {c : CodePoint} {s s' : State}

theorem scopes_of_outline (h : s.outline = {}) :
    s.scopes = [] ∧ (s.mode.isValue ∨ s.mode.Begun) := by
  obtain ⟨mode, scopes⟩ := s
  have hquoting := congrArg Outline.quoting h
  have hdepth : scopes.length + mode.outline.depth = 0 := congrArg Outline.depth h
  refine ⟨List.length_eq_zero_iff.1 (Nat.eq_zero_of_add_eq_zero_right hdepth), ?_⟩
  cases mode with
  | value => exact .inl rfl
  | word | minus | number | after => exact .inr trivial
  | key | colon => cases hdepth
  | string | escape | hex => cases hquoting

theorem stepAfter_nil (v : Json) (p : Nat) (c : CodePoint) : stepAfter v [] p c =
    if isSpace c then .ok ⟨.after v, []⟩ else .error (.malformed .extraData p) := rfl

theorem stepAfter_of_under {v : Json} {scopes outer : List Scope} {u : State}
    (h : stepAfter v (scopes ++ outer) p c = .ok u)
    (hw : scopes = [] → ∀ x ∈ Outline.edges, c ≠ .char x) :
    ∃ s', stepAfter v scopes p c = .ok s' ∧ u = s'.under outer := by
  unfold stepAfter at h
  split at h
  next hc =>
    cases h
    exact ⟨⟨.after v, scopes⟩, by simp [stepAfter, hc], rfl⟩
  next hc =>
    cases scopes with
    | nil =>
        split at h
        case h_5 => cases h
        all_goals exact absurd rfl (hw rfl _ (by decide))
    | cons scope rest =>
        split at h
        case h_5 => cases h
        all_goals
          rename_i hscope
          cases hscope
          cases h
          exact ⟨_, rfl, rfl⟩

/-- The outermost array is still open, or it is read. -/
inductive State.InArray : State → Prop
  | inside {mode : Mode} (inner : List Scope) (done : List Json) :
      InArray ⟨mode, inner ++ [.items done]⟩
  | behind (items : List Json) : InArray ⟨.after (.arr items), []⟩

theorem inArray_of_stepAfter {v : Json} {inner : List Scope} {done : List Json}
    (h : stepAfter v (inner ++ [.items done]) p c = .ok s') : s'.InArray := by
  cases inner with
  | nil =>
      unfold stepAfter at h
      split at h
      next =>
        cases h
        exact .inside [] done
      next hc =>
        split at h
        case h_1 hscope =>
          cases hscope
          cases h
          exact .inside [] (v :: done)
        case h_2 hscope =>
          cases hscope
          cases h
          exact .behind (v :: done).reverse
        case h_3 hscope => cases hscope
        case h_4 hscope => cases hscope
        case h_5 => cases h
  | cons scope inner =>
      -- Something inside of the array is read, so the array stays open.
      obtain ⟨u, -, rfl⟩ := stepAfter_of_under h (by simp)
      exact .inside u.scopes done

variable [Stack]

theorem step_outside_ne_ok (hs : s.mode.Plain) (ho : s.outline = {}) {x : Char}
    (hx : x ∈ Outline.edges) : step s p (.char x) ≠ .ok s' := by
  obtain ⟨hscopes, hm⟩ := scopes_of_outline ho
  obtain ⟨mode, scopes⟩ := s
  cases hscopes
  intro h
  rcases hm with hvalue | hbegun
  · cases mode with
    | value mayClose =>
        simp only [Outline.edges, List.mem_cons, List.not_mem_nil, or_false] at hx
        rcases hx with rfl | rfl | rfl <;> cases mayClose <;> cases h
    | _ => cases hvalue
  · have hdelimiter : ∀ x ∈ Outline.edges,
        x ∈ [',', ']', '\x7d', ' ', '\n', '\t', '\r'] := forall_mem_chars (by decide)
    have hspace : ∀ x ∈ Outline.edges, isSpace (.char x) = false := forall_mem_chars (by decide)
    have hc := isDelimiter_of_mem (hdelimiter x hx)
    obtain ⟨v, hv⟩ := value?_of_step hs hbegun hc h
    rw [step_of_value? hv hc, stepAfter_nil, hspace x hx] at h
    cases h

theorem whole_of_run {t : Text} (hs : s.mode.Plain) (h : run s p t = .ok s')
    (ho : s'.outline = {}) : s.outline.whole t := by
  induction t generalizing s p with
  | nil =>
      cases h
      rw [ho]
      rfl
  | cons c r ih =>
      obtain ⟨m, hm, h⟩ := run_cons_eq_ok.1 h
      obtain ⟨hplain, houtline⟩ := fits_step hs hm
      exact Outline.whole_cons.2 ⟨fun ho x hx hc => step_outside_ne_ok hs ho hx (hc ▸ hm),
        houtline ▸ ih hplain h⟩

theorem Reads.isWhole {t : Text} {v : Json} (h : Reads t v) : isWhole t := by
  obtain ⟨s, hs, hv⟩ := h
  exact whole_of_run (s := start) trivial hs hv.outline

section Under

variable {outer : List Scope} {u : State}

/-- A step that does not leave a text would also be made without what is open around the text. -/
theorem step_of_under (h : step (s.under outer) p c = .ok u)
    (hw : s.outline = {} → ∀ x ∈ Outline.edges, c ≠ .char x) :
    ∃ s', step s p c = .ok s' ∧ u = s'.under outer := by
  obtain ⟨mode, scopes⟩ := s
  have hmoves : Moves p c ⟨mode, scopes ++ outer⟩ u := moves_of_step h
  generalize hall : scopes ++ outer = all at hmoves
  cases hmoves with
  | waits hc hm hstep | within hstep => exact ⟨_, hstep _ scopes, by rw [← hall]; rfl⟩
  | behind hv hc h =>
      subst hall
      obtain ⟨s', hs', hu⟩ := stepAfter_of_under h (by
        rintro rfl
        exact hw (State.Holds.outline ⟨rfl, hv⟩))
      exact ⟨s', (step_of_value? hv hc p).trans hs', hu⟩
  | @opens mayClose _ k hc hlimit =>
      subst hall hc
      rw [List.length_append] at hlimit
      refine ⟨opened scopes k, ?_, (opened_under scopes outer k).symm⟩
      exact (step_opener mayClose scopes p k).trans (openIn_eq_ok_iff.2 ⟨by omega, rfl⟩)
  | closes hc =>
      subst hc
      cases scopes with
      | nil => exact absurd rfl (hw rfl _ (by decide))
      | cons scope rest =>
          cases hall
          exact ⟨_, rfl, rfl⟩
  | names hc =>
      subst hall hc
      exact ⟨_, rfl, rfl⟩

theorem run_of_under {t : Text} (hs : s.mode.Plain) (h : run (s.under outer) p t = .ok u)
    (hw : s.outline.whole t) :
    ∃ s', run s p t = .ok s' ∧ u = s'.under outer ∧ s'.outline = {} := by
  induction t generalizing s p with
  | nil =>
      cases h
      exact ⟨s, rfl, rfl, by simpa [Outline.whole] using hw⟩
  | cons c r ih =>
      obtain ⟨hedge, hw⟩ := Outline.whole_cons.1 hw
      obtain ⟨m, hm, h⟩ := run_cons_eq_ok.1 h
      obtain ⟨m', hm', rfl⟩ := step_of_under hm hedge
      obtain ⟨hplain, houtline⟩ := fits_step hs hm'
      obtain ⟨s', hs', hu⟩ := ih hplain h (houtline ▸ hw)
      exact ⟨s', run_cons_eq_ok.2 ⟨m', hm', hs'⟩, hu⟩

end Under

theorem value_of_step (h : step s p c = .ok s') (hv : s'.mode.isValue) (hscopes : s'.scopes = []) :
    isSpace c ∧ s' = s := by
  cases moves_of_step h with
  | waits hc => exact ⟨hc, rfl⟩
  | within h hm => exact absurd hv (by simp [hm])
  | behind _ _ h =>
      unfold stepAfter at h
      split at h
      next =>
        cases h
        cases hv
      next =>
        split at h
        case h_1 =>
          cases h
          cases hscopes
        case h_5 => cases h
        all_goals
          cases h
          cases hv
  | opens k =>
      cases k with
      | array => cases hscopes
      | object => cases hv
  | closes => cases hv
  | names => cases hscopes

theorem value_of_run {t : Text} (h : run s p t = .ok s') (hv : s'.mode.isValue)
    (hscopes : s'.scopes = []) : (∀ c ∈ t, isSpace c) ∧ s' = s := by
  induction t generalizing s p with
  | nil =>
      cases h
      exact ⟨List.forall_mem_nil _, rfl⟩
  | cons c r ih =>
      obtain ⟨m, hm, h⟩ := run_cons_eq_ok.1 h
      obtain ⟨hr, rfl⟩ := ih h
      obtain ⟨hc, rfl⟩ := value_of_step hm hv hscopes
      exact ⟨List.forall_mem_cons.2 ⟨hc, hr⟩, rfl⟩

theorem exists_item {t : Text} (hw : isWhole t) (hhead : ∃ c' r', t = c' :: r' ∧ ¬ isSpace c')
    {done : List Json} {mayClose : Bool} {r : Text} {u : State} (hc : IsDelimiter c)
    (h : run (.item done mayClose) p (t ++ c :: r) = .ok u) :
    ∃ v m q, Reads t v ∧ stepAfter v [.items done] q c = .ok m ∧ run m (q + 1) r = .ok u := by
  have hfalse : run (.item done false) p (t ++ c :: r) = .ok u := by
    obtain ⟨c', r', rfl, hspace⟩ := hhead
    have hclose : c' ≠ .char ']' := (Outline.whole_cons.1 hw).1 rfl _ (by decide)
    rw [← h]
    simp only [List.cons_append, run, State.item, step_value_of_ne hspace hclose]
  obtain ⟨m, hm, hrest⟩ := run_append_eq_ok.1 hfalse
  obtain ⟨m', hm', hend⟩ := run_cons_eq_ok.1 hrest
  have hunder : run (start.under [.items done]) p t = .ok m := hm
  obtain ⟨s, hs, rfl, ho⟩ := run_of_under (s := start) trivial hunder hw
  -- The text is not blank, so a value was begun in it, and the delimiter behind it finds it whole.
  obtain ⟨hscopes, hmode⟩ := scopes_of_outline ho
  have hbegun : s.mode.Begun := by
    refine hmode.resolve_left fun hvalue => ?_
    obtain ⟨c', r', rfl, hspace⟩ := hhead
    exact hspace ((value_of_run hs hvalue hscopes).1 c' (by simp))
  have hplain : s.mode.Plain := (fits_run (s := start) trivial hs).1
  obtain ⟨v, hv⟩ := value?_of_step (s := s.under [.items done]) hplain hbegun hc hm'
  rw [step_of_value? hv hc] at hm'
  refine ⟨v, m', p + t.length, Reads.of_run hs ⟨hscopes, hv⟩, ?_, hend⟩
  rwa [State.under, hscopes] at hm'

theorem reads_of_run_items {ts : List Text} (hne : ts ≠ []) (hw : ∀ t ∈ ts, isWhole t)
    (hhead : ∀ t ∈ ts, ∃ c' r', t = c' :: r' ∧ ¬ isSpace c') {done : List Json} {mayClose : Bool}
    (h : run (.item done mayClose) p (Text.joinWith "," ts ++ [.char ']']) = .ok s') :
    ∃ vs, List.Forall₂ Reads ts vs ∧ s' = ⟨.after (.arr (done.reverse ++ vs)), []⟩ := by
  induction ts generalizing done mayClose p with
  | nil => exact absurd rfl hne
  | cons t ts ih =>
      obtain ⟨hwt, hwts⟩ := List.forall_mem_cons.1 hw
      obtain ⟨hht, hhts⟩ := List.forall_mem_cons.1 hhead
      cases ts with
      | nil =>
          rw [Text.joinWith, List.intercalate_singleton] at h
          obtain ⟨v, m, q, hv, hm, h⟩ := exists_item hwt hht (isDelimiter_of_mem (by decide)) h
          cases hm
          cases h
          exact ⟨[v], .cons hv .nil, by simp⟩
      | cons u us =>
          rw [joinWith_comma_cons_cons] at h
          obtain ⟨v, m, q, hv, hm, h⟩ := exists_item hwt hht (isDelimiter_of_mem (by decide)) h
          cases hm
          obtain ⟨vs, hvs, rfl⟩ := ih (by simp) hwts hhts h
          exact ⟨v :: vs, .cons hv hvs, by simp⟩

theorem inArray_of_step (hs : s.InArray) (h : step s p c = .ok s') : s'.InArray := by
  cases hs with
  | @inside mode inner done =>
      have hmoves := moves_of_step h
      generalize hall : inner ++ [.items done] = all at hmoves
      cases hmoves with
      | waits | within =>
          subst hall
          exact .inside inner done
      | behind hv hc h =>
          subst hall
          exact inArray_of_stepAfter h
      | opens k =>
          subst hall
          cases k with
          | array => exact .inside (.items [] :: inner) done
          | object => exact .inside inner done
      | closes =>
          cases inner with
          | nil =>
              cases hall
              exact .behind []
          | cons scope inner =>
              cases hall
              exact .inside inner done
      | @names objectDone key =>
          subst hall
          exact .inside (.member objectDone key :: inner) done
  | behind items =>
      have hafter : stepAfter (.arr items) [] p c = .ok s' := h
      rw [stepAfter_nil] at hafter
      split at hafter
      · cases hafter
        exact .behind items
      · cases hafter

theorem inArray_of_run {t : Text} (hs : s.InArray) (h : run s p t = .ok s') : s'.InArray := by
  induction t generalizing s p with
  | nil =>
      cases h
      exact hs
  | cons c r ih =>
      obtain ⟨m, hm, h⟩ := run_cons_eq_ok.1 h
      exact ih (inArray_of_step hs hm) h

theorem arr_of_read_arrayText {ts : List Text} {v : Json} (h : read (arrayText ts) = .ok v) :
    ∃ items, v = .arr items := by
  obtain ⟨s, hs, hv⟩ := read_eq_ok_iff.1 h
  rw [run_arrayText (reading_pos_of_run hs)] at hs
  cases inArray_of_run (.inside [] []) hs with
  | inside inner done => exact absurd hv.1 (by simp)
  | behind items =>
      cases hv.2
      exact ⟨items, rfl⟩

/-- What is read between the brackets is what the texts are read as, if none of them goes on in the
next one. -/
theorem forall₂_reads_iff {ts : List Text} (hhead : ∀ t ∈ ts, ∃ c r, t = c :: r ∧ ¬ isSpace c)
    {items : List Json} (h : read (arrayText ts) = .ok (.arr items)) :
    List.Forall₂ Reads ts items ↔ ∀ t ∈ ts, isWhole t := by
  constructor
  · intro hts
    clear h hhead
    induction hts with
    | nil => exact List.forall_mem_nil _
    | cons ht _ ih => exact List.forall_mem_cons.2 ⟨ht.isWhole, ih⟩
  · intro hw
    obtain ⟨s, hs, hv⟩ := read_eq_ok_iff.1 h
    rw [run_arrayText (reading_pos_of_run hs)] at hs
    by_cases hne : ts = []
    · subst hne
      cases hs
      cases hv.2
      exact .nil
    · obtain ⟨vs, hvs, rfl⟩ := reads_of_run_items hne hw hhead hs
      cases hv.2
      exact hvs

end JsonnetPreview.Json
