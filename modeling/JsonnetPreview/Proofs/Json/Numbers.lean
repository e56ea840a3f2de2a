import JsonnetPreview.Proofs.Decimal.Scaling
import JsonnetPreview.Proofs.Json.Moves

namespace JsonnetPreview.Json

open Layout (signed)

variable {p : Nat} {scopes : List Scope}

theorem digit?_digitChar {d : Nat} (h : d < 10) : digit? (.char (Nat.digitChar d)) = some d := by
  have hall : ∀ d : Fin 10, digit? (.char (Nat.digitChar d)) = some d.val := by decide
  exact hall ⟨d, h⟩

namespace NumberPhase

/-- The phase behind a digit. A number that begins with a zero takes no more of them. -/
def next : NumberPhase → NumberPhase
  | zero => zero
  | whole => whole
  | point _ | fraction => fraction
  | exponentMark _ | exponentSign _ | exponent => exponent

theorem next_next (phase : NumberPhase) : phase.next.next = phase.next := by cases phase <;> rfl

theorem next_ne_zero {phase : NumberPhase} (h : phase ≠ zero) : phase.next ≠ zero := by
  cases phase with
  | zero => exact absurd rfl h
  | whole | point | fraction | exponentMark | exponentSign | exponent => exact nofun

end NumberPhase

namespace NumberText

def push (n : NumberText) (phase : NumberPhase) (ds : Numeral) : NumberText :=
  match phase with
  | .zero | .whole => { n with whole := ds.reverse ++ n.whole }
  | .point _ | .fraction => { n with fraction := ds.reverse ++ n.fraction }
  | .exponentMark _ | .exponentSign _ | .exponent =>
    { n with exponent := ds.reverse ++ n.exponent }

theorem push_cons (n : NumberText) (phase : NumberPhase) (d : Nat) (ds : Numeral) :
    n.push phase (d :: ds) = (n.push phase [d]).push phase.next ds := by
  cases phase <;> simp [push, NumberPhase.next]

end NumberText

theorem step_digit [Stack] {n : NumberText} {phase : NumberPhase} (hphase : phase ≠ .zero) {d : Nat}
    (hd : d < 10) : step ⟨.number n phase, scopes⟩ p (.char (Nat.digitChar d)) =
      .ok ⟨.number (n.push phase [d]) phase.next, scopes⟩ := by
  simp only [step, digit?_digitChar hd]
  cases phase with
  | zero => exact absurd rfl hphase
  | whole | point | fraction | exponentMark | exponentSign | exponent => rfl

theorem run_digits [Stack] {n : NumberText} {phase : NumberPhase} (hphase : phase ≠ .zero) {d : Nat}
    {ds : Numeral} (hds : ∀ e ∈ d :: ds, e < 10) :
    run ⟨.number n phase, scopes⟩ p (Numeral.text (d :: ds)) =
      .ok ⟨.number (n.push phase (d :: ds)) phase.next, scopes⟩ := by
  induction ds generalizing d n phase p with
  | nil => exact run_cons_eq_ok.2 ⟨_, step_digit hphase (hds d (by simp)), rfl⟩
  | cons e ds ih =>
      obtain ⟨hd, hds⟩ := List.forall_mem_cons.1 hds
      have hrest := ih (n := n.push phase [d]) (p := p + 1) (NumberPhase.next_ne_zero hphase) hds
      rw [phase.next_next] at hrest
      rw [n.push_cons phase d (e :: ds)]
      exact run_cons_eq_ok.2 ⟨_, step_digit hphase hd, hrest⟩

structure IsWhole (w : Numeral) : Prop where
  digits : ∀ d ∈ w, d < 10
  leads : w = [0] ∨ ∃ d r, w = d :: r ∧ d ≠ 0

theorem isWhole_zero : IsWhole [0] := ⟨by decide, .inl rfl⟩

theorem isWhole_ofNat (n : Nat) : IsWhole (.ofNat n) where
  digits _ := Numeral.lt_ten_of_mem_ofNat
  leads := by
    by_cases h : n = 0
    · exact .inl (h ▸ Numeral.ofNat_zero)
    · exact .inr (Numeral.exists_ofNat_eq_cons h)

theorem beginValue_digit [Stack] {d : Nat} (hd : d < 10) :
    beginValue scopes p (.char (Nat.digitChar d)) =
      .ok ⟨.number { negative := false, whole := [d] } (if d = 0 then .zero else .whole),
        scopes⟩ := by
  match d, hd with
  | 0, _ | 1, _ | 2, _ | 3, _ | 4, _ | 5, _ | 6, _ | 7, _ | 8, _ | 9, _ => rfl

def wholeRead (negative : Bool) (w : Numeral) (scopes : List Scope) : State :=
  ⟨.number { negative, whole := w.reverse } (if w = [0] then .zero else .whole), scopes⟩

theorem step_whole_digit [Stack] (negative : Bool) {d : Nat} (hd : d < 10) (start : Nat)
    (mayClose : Bool) :
    step (if negative then ⟨.minus start, scopes⟩ else ⟨.value mayClose, scopes⟩) p
      (.char (Nat.digitChar d)) = .ok (wholeRead negative [d] scopes) := by
  cases negative with
  | false =>
      have hspace : ¬ isSpace (.char (Nat.digitChar d)) := by
        match d, hd with
        | 0, _ | 1, _ | 2, _ | 3, _ | 4, _ | 5, _ | 6, _ | 7, _ | 8, _ | 9, _ => decide
      have hclose : CodePoint.char (Nat.digitChar d) ≠ .char ']' := by
        match d, hd with
        | 0, _ | 1, _ | 2, _ | 3, _ | 4, _ | 5, _ | 6, _ | 7, _ | 8, _ | 9, _ => decide
      refine (step_value_of_ne hspace hclose mayClose scopes p).trans ?_
      rw [beginValue_digit hd]
      simp [wholeRead]
  | true =>
      match d, hd with
      | 0, _ | 1, _ | 2, _ | 3, _ | 4, _ | 5, _ | 6, _ | 7, _ | 8, _ | 9, _ => rfl

theorem run_whole [Stack] (negative : Bool) {w : Numeral} (hw : IsWhole w) (mayClose : Bool) :
    run ⟨.value mayClose, scopes⟩ p (signed negative w.text) =
      .ok (wholeRead negative w scopes) := by
  have hdigits (start : Nat) (p : Nat) :
      run (if negative then ⟨.minus start, scopes⟩ else ⟨.value mayClose, scopes⟩) p w.text =
        .ok (wholeRead negative w scopes) := by
    rcases hw.leads with rfl | ⟨d, r, rfl, hd⟩
    · exact run_cons_eq_ok.2 ⟨_, step_whole_digit negative (by decide) start mayClose, rfl⟩
    · obtain ⟨hd10, hr⟩ := List.forall_mem_cons.1 hw.digits
      refine run_cons_eq_ok.2 ⟨_, step_whole_digit negative hd10 start mayClose, ?_⟩
      cases r with
      | nil => rfl
      | cons e r =>
          have hphase : (if [d] = [0] then NumberPhase.zero else .whole) = .whole := by simp [hd]
          rw [wholeRead, hphase, wholeRead, if_neg (by simp)]
          refine (run_digits NumberPhase.noConfusion hr).trans ?_
          simp [NumberText.push, NumberPhase.next]
  cases negative with
  | false => exact hdigits 0 p
  | true =>
      have hminus : step ⟨.value mayClose, scopes⟩ p (.char '-') = .ok ⟨.minus p, scopes⟩ := by
        cases mayClose <;> rfl
      exact run_cons_eq_ok.2 ⟨_, hminus, hdigits p (p + 1)⟩

def fractionPart : Numeral → Text
  | [] => []
  | d :: ds => .char '.' :: Numeral.text (d :: ds)

def exponentPart (negative : Bool) (e : Numeral) : Text :=
  .char 'e' :: .char (if negative then '-' else '+') :: e.text

def fractionPhase (w f : Numeral) : NumberPhase :=
  if f = [] then if w = [0] then .zero else .whole else .fraction

theorem complete_fractionPhase (w f : Numeral) : (fractionPhase w f).complete := by
  unfold fractionPhase
  split
  · split <;> rfl
  · rfl

theorem run_fraction [Stack] (negative : Bool) (w : Numeral) {f : Numeral} (hf : ∀ d ∈ f, d < 10) :
    run (wholeRead negative w scopes) p (fractionPart f) =
      .ok ⟨.number { negative, whole := w.reverse, fraction := f.reverse } (fractionPhase w f),
        scopes⟩ := by
  cases f with
  | nil => rfl
  | cons d ds =>
      have hpoint : step (wholeRead negative w scopes) p (.char '.') =
          .ok ⟨.number { negative, whole := w.reverse } (.point p), scopes⟩ := by
        unfold wholeRead
        split <;> rfl
      refine run_cons_eq_ok.2 ⟨_, hpoint, (run_digits NumberPhase.noConfusion hf).trans ?_⟩
      simp [NumberText.push, NumberPhase.next, fractionPhase]

theorem run_exponent [Stack] (n : NumberText) (w f : Numeral) (negative : Bool) {e : Numeral}
    (hne : e ≠ []) (he : ∀ d ∈ e, d < 10) (hn : n.exponentNegative = false) (hexp : n.exponent = []) :
    run ⟨.number n (fractionPhase w f), scopes⟩ p (exponentPart negative e) =
      .ok ⟨.number { n with exponentNegative := negative, exponent := e.reverse } .exponent,
        scopes⟩ := by
  obtain ⟨d, ds, rfl⟩ := List.exists_cons_of_ne_nil hne
  have hmark : step ⟨.number n (fractionPhase w f), scopes⟩ p (.char 'e') =
      .ok ⟨.number n (.exponentMark p), scopes⟩ := by
    unfold fractionPhase
    split
    · split <;> rfl
    · rfl
  have hsign : step ⟨.number n (.exponentMark p), scopes⟩ (p + 1)
      (.char (if negative then '-' else '+')) =
        .ok ⟨.number { n with exponentNegative := negative } (.exponentSign p), scopes⟩ := by
    obtain ⟨_, _, _, _, _⟩ := n
    cases hn
    cases negative <;> rfl
  refine run_cons_eq_ok.2 ⟨_, hmark, run_cons_eq_ok.2 ⟨_, hsign, ?_⟩⟩
  refine (run_digits NumberPhase.noConfusion he).trans ?_
  simp [NumberText.push, NumberPhase.next, hexp]

theorem signed_append (negative : Bool) (t u : Text) :
    signed negative (t ++ u) = signed negative t ++ u := by
  cases negative <;> rfl

theorem run_positional [Stack] (negative : Bool) {w f : Numeral} (hw : IsWhole w)
    (hf : ∀ d ∈ f, d < 10) (mayClose : Bool) :
    run ⟨.value mayClose, scopes⟩ p (signed negative (w.text ++ fractionPart f)) =
      .ok ⟨.number { negative, whole := w.reverse, fraction := f.reverse } (fractionPhase w f),
        scopes⟩ := by
  rw [signed_append]
  exact run_append_eq_ok.2 ⟨_, run_whole negative hw mayClose, run_fraction negative w hf⟩

theorem run_scientific [Stack] (negative : Bool) {w f e : Numeral} (hw : IsWhole w)
    (hf : ∀ d ∈ f, d < 10) (exponentNegative : Bool) (hne : e ≠ []) (he : ∀ d ∈ e, d < 10) (mayClose : Bool) :
    run ⟨.value mayClose, scopes⟩ p
        (signed negative (w.text ++ fractionPart f ++ exponentPart exponentNegative e)) =
      .ok ⟨.number ⟨negative, w.reverse, f.reverse, exponentNegative, e.reverse⟩ .exponent,
        scopes⟩ := by
  rw [signed_append]
  exact run_append_eq_ok.2 ⟨_, run_positional negative hw hf mayClose,
    run_exponent _ w f exponentNegative hne he rfl rfl⟩

theorem signed_natAbs (n : Int) : signed (decide (n < 0)) (Text.ofNat n.natAbs) = Text.ofInt n := by
  cases n with
  | ofNat n => rfl
  | negSucc n => simp [signed, Text.ofInt, Int.negSucc_lt_zero]

theorem value?_whole {negative : Bool} {w : Numeral} (h : w.length ≤ Numeral.digitLimit)
    (phase : NumberPhase) (hphase : phase.complete) :
    (Mode.number { negative, whole := w.reverse } phase).value? =
      some (.int (if negative then -(w.value : Int) else w.value)) := by
  have hlimit : ¬ Numeral.digitLimit < w.length := Nat.not_lt.2 h
  simp [Mode.value?, hphase, NumberText.value, NumberText.value?, Numeral.value?, hlimit, bind,
    Except.bind, Except.toOption, pure, Except.pure]

theorem run_ofInt [Stack] {n : Int} (h : n.natAbs < 10 ^ Numeral.digitLimit) (mayClose : Bool) :
    ∃ m : Mode, run ⟨.value mayClose, scopes⟩ p (Text.ofInt n) = .ok ⟨m, scopes⟩ ∧
      m.value? = some (.int n) := by
  have hlength : (Numeral.ofNat n.natAbs).length ≤ Numeral.digitLimit :=
    (Numeral.length_ofNat_le_iff (by decide)).2 h
  have hvalue : (if decide (n < 0) then -(n.natAbs : Int) else n.natAbs) = n := by
    split
    next hn =>
      have hneg := of_decide_eq_true hn
      omega
    next hn =>
      have hnonneg : ¬ n < 0 := fun h => hn (decide_eq_true h)
      omega
  refine ⟨_, ?_, (value?_whole hlength (fractionPhase (.ofNat n.natAbs) [])
    (complete_fractionPhase _ _)).trans (by rw [Numeral.value_ofNat, hvalue])⟩
  rw [← signed_natAbs, ← Numeral.text_ofNat]
  exact run_whole (decide (n < 0)) (isWhole_ofNat n.natAbs) mayClose

theorem text_replicate_zero (k : Nat) :
    Numeral.text (List.replicate k 0) = Text.replicate k '0' := List.map_replicate ..

theorem value?_fraction {n : NumberText} (hn : n.fraction ≠ [] ∨ n.exponent ≠ []) {x : Magnitude}
    (hx : Magnitude.ofDecimal n.decimal = some x) {phase : NumberPhase} (hphase : phase.complete) :
    (Mode.number n phase).value? = some (.float (.finite n.negative x)) := by
  have hfloat : (n.fraction.isEmpty && n.exponent.isEmpty) = false := by
    rcases hn with hn | hn <;> simp [hn]
  simp [Mode.value?, hphase, NumberText.value, NumberText.value?, hfloat, hx, Except.toOption]

theorem isWhole_append {w : Numeral} (hw : IsWhole w) (h : w ≠ [0]) {ds : Numeral}
    (hds : ∀ d ∈ ds, d < 10) : IsWhole (w ++ ds) where
  digits := List.forall_mem_append.2 ⟨hw.digits, hds⟩
  leads := by
    obtain ⟨d, r, rfl, hd⟩ := hw.leads.resolve_left h
    exact .inr ⟨d, r ++ ds, rfl, hd⟩

theorem isWhole_take {w : Numeral} (hw : IsWhole w) {k : Nat} (hk : 0 < k) :
    IsWhole (w.take k) where
  digits d hd := hw.digits d (List.mem_of_mem_take hd)
  leads := by
    obtain ⟨k, rfl⟩ := Nat.exists_eq_succ_of_ne_zero (Nat.ne_of_gt hk)
    rcases hw.leads with rfl | ⟨d, r, rfl, hd⟩
    · exact .inl (by simp)
    · exact .inr ⟨d, r.take k, by simp, hd⟩

/-- A magnitude that is written out, with its digits before and behind the point. -/
structure WrittenOut (t : Text) (w f : Numeral) (x : Magnitude) : Prop where
  text : t = w.text ++ fractionPart f
  whole : IsWhole w
  digits : ∀ d ∈ f, d < 10
  ne_nil : f ≠ []
  value : Magnitude.ofDecimal ⟨Numeral.value (w ++ f), -(f.length : Int)⟩ = some x

theorem fractionPart_of_ne_nil {f : Numeral} (h : f ≠ []) :
    fractionPart f = .char '.' :: f.text := by
  obtain ⟨d, ds, rfl⟩ := List.exists_cons_of_ne_nil h
  rfl

section Positional

variable {ds : Numeral} {e : Int} {x : Magnitude}

theorem writtenOut_below (hds : IsWhole ds) (h : Magnitude.ofDecimal ⟨ds.value, e⟩ = some x)
    (hpoint : ds.length + e ≤ 0) :
    WrittenOut (Layout.positional ds.text (ds.length + e)) [0]
      (List.replicate (-(ds.length + e)).toNat 0 ++ ds) x where
  text := by
    have hne : List.replicate (-(ds.length + e)).toNat 0 ++ ds ≠ [] := by
      rcases hds.leads with rfl | ⟨d, r, rfl, -⟩ <;> simp
    rw [Layout.positional, if_pos hpoint, fractionPart_of_ne_nil hne, Numeral.text_append,
      text_replicate_zero, List.append_assoc]
    rfl
  whole := isWhole_zero
  digits := List.forall_mem_append.2 ⟨by simp, hds.digits⟩
  ne_nil := by rcases hds.leads with rfl | ⟨d, r, rfl, -⟩ <;> simp
  value := by
    have hvalue : Numeral.value ([0] ++ (List.replicate (-(ds.length + e)).toNat 0 ++ ds)) =
        ds.value := by
      rw [← List.append_assoc]
      exact Numeral.value_zeros_append ((-(ds.length + e)).toNat + 1) ds
    have hexp : -((List.replicate (-(ds.length + e)).toNat 0 ++ ds).length : Int) = e := by
      rw [List.length_append, List.length_replicate]
      omega
    rw [hvalue, hexp, h]

theorem writtenOut_above (hds : IsWhole ds) (hne : ds ≠ [0])
    (h : Magnitude.ofDecimal ⟨ds.value, e⟩ = some x) (hx : x ≠ .zero) (he : 0 ≤ e) :
    WrittenOut (Layout.positional ds.text (ds.length + e)) (ds ++ List.replicate e.toNat 0) [0]
      x where
  text := by
    have hpos : ¬ (ds.length : Int) + e ≤ 0 := by
      rcases hds.leads with rfl | ⟨d, r, rfl, -⟩ <;> simp <;> omega
    have hlength : ds.length ≤ ((ds.length : Int) + e).toNat := by omega
    have hzeros : ((ds.length : Int) + e).toNat - ds.length = e.toNat := by omega
    rw [Layout.positional, if_neg hpos, Numeral.length_text, if_pos hlength, hzeros,
      Numeral.text_append, text_replicate_zero]
    rfl
  whole := isWhole_append hds hne (by simp)
  digits := by decide
  ne_nil := by simp
  value := by
    have hvalue : Numeral.value (ds ++ List.replicate e.toNat 0 ++ [0]) =
        ds.value * 10 ^ (e.toNat + 1) := by
      rw [List.append_assoc, ← List.replicate_succ', Numeral.value_append_zeros]
    have hexp : -(([0] : Numeral).length : Int) = e - (e.toNat + 1 : Nat) := by
      simp only [List.length_singleton]
      omega
    rw [hvalue, hexp]
    exact Magnitude.ofDecimal_scale h hx (e.toNat + 1)

theorem writtenOut_within (hds : IsWhole ds) (h : Magnitude.ofDecimal ⟨ds.value, e⟩ = some x)
    (hpoint : 0 < ds.length + e) (he : e < 0) :
    WrittenOut (Layout.positional ds.text (ds.length + e)) (ds.take (ds.length + e).toNat)
      (ds.drop (ds.length + e).toNat) x where
  text := by
    have hlength : ¬ ds.length ≤ ((ds.length : Int) + e).toNat := by omega
    have hne : ds.drop ((ds.length : Int) + e).toNat ≠ [] := by
      simp only [ne_eq, List.drop_eq_nil_iff]
      omega
    rw [Layout.positional, if_neg (by omega), Numeral.length_text, if_neg hlength,
      fractionPart_of_ne_nil hne, Numeral.text, Numeral.text, Numeral.text, List.map_take,
      List.map_drop]
  whole := isWhole_take hds (by omega)
  digits d hd := hds.digits d (List.mem_of_mem_drop hd)
  ne_nil := by
    simp only [ne_eq, List.drop_eq_nil_iff]
    omega
  value := by
    have hexp : -((ds.drop ((ds.length : Int) + e).toNat).length : Int) = e := by
      rw [List.length_drop]
      omega
    rw [List.take_append_drop, hexp, h]

theorem exists_writtenOut (hds : IsWhole ds) (hne : ds ≠ [0])
    (h : Magnitude.ofDecimal ⟨ds.value, e⟩ = some x) (hx : x ≠ .zero) :
    ∃ w f, WrittenOut (Layout.positional ds.text (ds.length + e)) w f x := by
  by_cases hbelow : ds.length + e ≤ 0
  · exact ⟨_, _, writtenOut_below hds h hbelow⟩
  · by_cases he : 0 ≤ e
    · exact ⟨_, _, writtenOut_above hds hne h hx he⟩
    · exact ⟨_, _, writtenOut_within hds h (Int.not_le.1 hbelow) (Int.not_le.1 he)⟩

end Positional

theorem run_writtenOut [Stack] {t : Text} {w f : Numeral} {x : Magnitude} (h : WrittenOut t w f x)
    (negative mayClose : Bool) :
    ∃ m : Mode, run ⟨.value mayClose, scopes⟩ p (signed negative t) = .ok ⟨m, scopes⟩ ∧
      m.value? = some (.float (.finite negative x)) := by
  rw [h.text]
  refine ⟨_, run_positional negative h.whole h.digits mayClose,
    value?_fraction (.inl (by simpa using h.ne_nil)) ?_ (complete_fractionPhase w f)⟩
  simpa [NumberText.decimal, Numeral.value] using h.value

def exponentNumeral (e : Int) : Numeral :=
  List.replicate (2 - (Numeral.ofNat e.natAbs).length) 0 ++ Numeral.ofNat e.natAbs

theorem value_exponentNumeral (e : Int) : (exponentNumeral e).value = e.natAbs :=
  (Numeral.value_zeros_append _ _).trans (Numeral.value_ofNat _)

theorem exponentText_eq (e : Int) :
    .char 'e' :: Layout.exponentText e = exponentPart (decide (e < 0)) (exponentNumeral e) := by
  have hlength : (Text.ofNat e.natAbs).length = (Numeral.ofNat e.natAbs).length := by
    rw [← Numeral.text_ofNat, Numeral.length_text]
  rw [Layout.exponentText, exponentPart, exponentNumeral, Numeral.text_append, text_replicate_zero,
    Numeral.text_ofNat, hlength]
  by_cases he : e < 0 <;> simp [he]

theorem scientific_eq {ds : Numeral} (hds : IsWhole ds) (point : Int) :
    layout.scientific ds.text point = Numeral.text (ds.take 1) ++ fractionPart (ds.drop 1) ++
      exponentPart (decide (point - 1 < 0)) (exponentNumeral (point - 1)) := by
  obtain ⟨d, r, rfl⟩ : ∃ d r, ds = d :: r := by
    rcases hds.leads with rfl | ⟨d, r, rfl, -⟩
    · exact ⟨0, [], rfl⟩
    · exact ⟨d, r, rfl⟩
  rw [← exponentText_eq]
  cases r <;> rfl

theorem run_scientific_magnitude [Stack] {ds : Numeral} {e : Int} {x : Magnitude} (hds : IsWhole ds)
    (h : Magnitude.ofDecimal ⟨ds.value, e⟩ = some x) (negative mayClose : Bool) :
    ∃ m : Mode, run ⟨.value mayClose, scopes⟩ p
        (signed negative (layout.scientific ds.text (ds.length + e))) = .ok ⟨m, scopes⟩ ∧
      m.value? = some (.float (.finite negative x)) := by
  generalize hscale : (ds.length : Int) + e - 1 = scale
  have hdigits : ∀ d ∈ exponentNumeral scale, d < 10 :=
    List.forall_mem_append.2 ⟨by simp, (isWhole_ofNat _).digits⟩
  have hne : exponentNumeral scale ≠ [] := by
    rcases (isWhole_ofNat scale.natAbs).leads with hr | ⟨d, r, hr, -⟩ <;>
      simp [exponentNumeral, hr]
  rw [scientific_eq hds, hscale]
  refine ⟨_, run_scientific negative (isWhole_take hds Nat.one_pos)
    (fun d hd => hds.digits d (List.mem_of_mem_drop hd)) (decide (scale < 0)) hne hdigits mayClose,
    value?_fraction (.inr (by simpa using hne)) ?_ rfl⟩
  have hlength : ((ds.drop 1).length : Int) = ds.length - 1 := by
    rcases hds.leads with rfl | ⟨d, r, rfl, -⟩ <;> simp
  have hexp : (if decide (scale < 0) then -(scale.natAbs : Int) else scale.natAbs) -
      (ds.drop 1).length = e := by
    by_cases hs : scale < 0
    · rw [if_pos (decide_eq_true hs), hlength]
      omega
    · rw [if_neg (by simpa using hs), hlength]
      omega
  simp only [NumberText.decimal, List.reverse_reverse, List.take_append_drop, List.length_reverse,
    value_exponentNumeral]
  exact hexp ▸ h

theorem run_ofDecimal [Stack] {c : Nat} {e : Int} {x : Magnitude}
    (h : Magnitude.ofDecimal ⟨c, e⟩ = some x) (hx : x ≠ .zero) (negative mayClose : Bool) :
    ∃ m : Mode, run ⟨.value mayClose, scopes⟩ p (signed negative (layout.ofDecimal ⟨c, e⟩)) =
        .ok ⟨m, scopes⟩ ∧ m.value? = some (.float (.finite negative x)) := by
  have hne : Numeral.ofNat c ≠ [0] := by
    intro hzero
    rw [← Numeral.value_ofNat c, hzero] at h
    cases h
    exact hx rfl
  have hvalue : Magnitude.ofDecimal ⟨(Numeral.ofNat c).value, e⟩ = some x := by
    rwa [Numeral.value_ofNat]
  simp only [Layout.ofDecimal, ← Numeral.text_ofNat, Numeral.length_text]
  split
  · obtain ⟨w, f, hwf⟩ := exists_writtenOut (isWhole_ofNat c) hne hvalue hx
    exact run_writtenOut hwf negative mayClose
  · exact run_scientific_magnitude (isWhole_ofNat c) hvalue negative mayClose

theorem writtenOut_zero : WrittenOut (layout.ofDecimal ⟨0, 0⟩) [0] [0] .zero where
  text := rfl
  whole := isWhole_zero
  digits := by decide
  ne_nil := by simp
  value := rfl

/-- What is written of a floating-point number is read as that number. -/
theorem run_render [Stack] (x : Binary64) (mayClose : Bool) :
    ∃ m : Mode, run ⟨.value mayClose, scopes⟩ p (layout.render x) = .ok ⟨m, scopes⟩ ∧
      m.value? = some (.float x) := by
  cases x with
  | finite negative x =>
      by_cases hx : x = .zero
      · subst hx
        exact run_writtenOut writtenOut_zero negative mayClose
      · exact run_ofDecimal x.ofDecimal_shortest hx negative mayClose
  | infinite negative =>
      refine ⟨.after (.float (.infinite negative)), ?_, rfl⟩
      cases negative <;> cases mayClose <;> rfl
  | nan =>
      refine ⟨.after (.float .nan), ?_, rfl⟩
      cases mayClose <;> rfl

end JsonnetPreview.Json
