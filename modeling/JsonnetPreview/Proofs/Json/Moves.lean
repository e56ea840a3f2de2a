import JsonnetPreview.Proofs.Json.Outline
import JsonnetPreview.Proofs.Text.Numeral

namespace JsonnetPreview.Json

variable {p : Nat} {c : CodePoint} {s s' : State}

section Numbers

variable {n : NumberText} {phase : NumberPhase} {scopes : List Scope}

theorem NumberText.value_eq_ok {v : Json} : n.value = .ok v ↔ n.value.toOption = some v := by
  cases n.value <;> simp [Except.toOption]

def NumberPhase.complete : NumberPhase → Bool
  | .zero | .whole | .fraction | .exponent => true
  | .point _ | .exponentMark _ | .exponentSign _ => false

theorem endNumber_of_value {v : Json} (h : n.value = .ok v) :
    endNumber n scopes p c = stepAfter v scopes p c := by
  simp [endNumber, h, bind, Except.bind]

theorem endNumber_eq_ok (h : endNumber n scopes p c = .ok s') :
    ∃ v, n.value = .ok v ∧ stepAfter v scopes p c = .ok s' := by
  cases hn : n.value with
  | error e => simp [endNumber, hn, bind, Except.bind] at h
  | ok v => exact ⟨v, rfl, endNumber_of_value hn ▸ h⟩

theorem giveUpNumber_ne_ok {mark : Nat} : giveUpNumber n scopes mark ≠ .ok s' := by
  unfold giveUpNumber
  cases n.value <;> simp [bind, Except.bind]

def numberMarks : List Char := ['.', 'e', 'E', '+', '-']

theorem stepNumber_eq_ok (h : stepNumber n phase scopes p c = .ok s') :
    (phase.complete ∧ endNumber n scopes p c = .ok s') ∨
      ∃ x ∈ numberMarks, c = .char x ∧ ∃ n' phase', s' = ⟨.number n' phase', scopes⟩ ∧
        ∀ scopes, stepNumber n phase scopes p c = .ok ⟨.number n' phase', scopes⟩ := by
  cases phase with
  | zero | whole =>
      simp only [stepNumber] at h
      split at h
      next hc =>
        cases h
        subst hc
        exact .inr ⟨'.', by decide, rfl, _, _, rfl, fun _ => rfl⟩
      next =>
        split at h
        next hc =>
          cases h
          simp only [Bool.or_eq_true, decide_eq_true_eq] at hc
          rcases hc with rfl | rfl
          · exact .inr ⟨'e', by decide, rfl, _, _, rfl, fun _ => rfl⟩
          · exact .inr ⟨'E', by decide, rfl, _, _, rfl, fun _ => rfl⟩
        next => exact .inl ⟨rfl, h⟩
  | fraction =>
      simp only [stepNumber] at h
      split at h
      next hc =>
        cases h
        simp only [Bool.or_eq_true, decide_eq_true_eq] at hc
        rcases hc with rfl | rfl
        · exact .inr ⟨'e', by decide, rfl, _, _, rfl, fun _ => rfl⟩
        · exact .inr ⟨'E', by decide, rfl, _, _, rfl, fun _ => rfl⟩
      next => exact .inl ⟨rfl, h⟩
  | exponent => exact .inl ⟨rfl, h⟩
  | exponentMark mark =>
      simp only [stepNumber] at h
      split at h
      next hc =>
        cases h
        subst hc
        exact .inr ⟨'+', by decide, rfl, _, _, rfl, fun _ => rfl⟩
      next =>
        split at h
        next hc =>
          cases h
          subst hc
          exact .inr ⟨'-', by decide, rfl, _, _, rfl, fun _ => rfl⟩
        next => exact absurd h giveUpNumber_ne_ok
  | point mark | exponentSign mark => exact absurd h giveUpNumber_ne_ok

end Numbers

def Mode.value? : Mode → Option Json
  | .after v => some v
  | .word _ v [] => some v
  | .number n phase => if phase.complete then n.value.toOption else none
  | _ => none

def IsDelimiter (c : CodePoint) : Prop :=
  ∀ x : Char, x.isAlphanum ∨ x ∈ ['.', '+', '-'] → c ≠ .char x

theorem isDelimiter_of_mem {x : Char} (hx : x ∈ [',', ']', '\x7d', ' ', '\n', '\t', '\r']) :
    IsDelimiter (.char x) := by
  have hall : ∀ x ∈ [',', ']', '\x7d', ' ', '\n', '\t', '\r'],
      ¬ (x.isAlphanum ∨ x ∈ ['.', '+', '-']) := forall_mem_chars (by decide)
  exact fun y hy he => hall x hx (CodePoint.char.inj he ▸ hy)

theorem isDelimiter_of_isBlank (h : c.isBlank) : IsDelimiter c := by
  rintro x hx rfl
  have hall : ∀ n ∈ blankValues,
      ¬ ((Char.ofNat n).isAlphanum ∨ Char.ofNat n ∈ ['.', '+', '-']) := by decide
  exact hall _ (CodePoint.value_mem_blankValues h) (by rwa [CodePoint.value, Char.ofNat_toNat])

theorem IsDelimiter.digit? (hc : IsDelimiter c) : Json.digit? c = none := by
  cases c with
  | surrogate i => rfl
  | char x =>
      have hx : ¬ x.isDigit := fun hx => hc x (.inl (by simp [Char.isAlphanum, hx])) rfl
      simp [Json.digit?, hx]

theorem IsDelimiter.ne (hc : IsDelimiter c) {x : Char} (hx : x.isAlpha) : c ≠ .char x :=
  hc x (.inl (by simp [Char.isAlphanum, hx]))

theorem stepNumber_of_complete {phase : NumberPhase} (h : phase.complete) (hc : IsDelimiter c)
    (n : NumberText) (scopes : List Scope) (p : Nat) :
    stepNumber n phase scopes p c = endNumber n scopes p c := by
  have hpoint : c ≠ .char '.' := hc _ (by decide)
  have hmark : c ≠ .char 'e' ∧ c ≠ .char 'E' := ⟨hc _ (by decide), hc _ (by decide)⟩
  cases phase with
  | zero | whole | fraction => simp [stepNumber, hpoint, hmark]
  | exponent => rfl
  | point | exponentMark | exponentSign => cases h

/-- Something of a value is read, and a delimiter has to find it whole. -/
def Mode.Begun : Mode → Prop
  | .word .. | .minus _ | .number .. | .after _ => True
  | _ => False

theorem not_mark_of_isSpace (h : isSpace c) : ∀ m ∈ Outline.marks, c ≠ .char m := by
  simp only [isSpace, Bool.or_eq_true, decide_eq_true_eq] at h
  rcases h with ((rfl | rfl) | rfl) | rfl <;> exact forall_mem_chars (by decide)

theorem not_mark_of_isAlpha {r : Char} (h : r.isAlpha) :
    ∀ m ∈ Outline.marks, CodePoint.char r ≠ .char m := by
  have hmarks : ∀ m ∈ Outline.marks, m.isAlpha = false := forall_mem_chars (by decide)
  rintro m hm he
  rw [CodePoint.char.inj he, hmarks m hm] at h
  cases h

theorem not_mark_of_digit? {d : Nat} (h : digit? c = some d) :
    ∀ m ∈ Outline.marks, c ≠ .char m := by
  have hmarks : ∀ m ∈ Outline.marks, digit? (.char m) = none := forall_mem_chars (by decide)
  rintro m hm rfl
  rw [hmarks m hm] at h
  cases h

theorem not_mark_of_mem_numberMarks {x : Char} (h : x ∈ numberMarks) :
    ∀ m ∈ Outline.marks, CodePoint.char x ≠ .char m := by
  have hmarks : ∀ x ∈ numberMarks, x ∉ Outline.marks := forall_mem_chars (by decide)
  exact fun m hm he => hmarks x h (CodePoint.char.inj he ▸ hm)

theorem fits_of_not_mark {m m' : Mode} (hc : ∀ x ∈ Outline.marks, c ≠ .char x)
    (hm : m.outline = {}) (hm' : m'.outline = {}) (hplain : m'.Plain) (scopes : List Scope) :
    State.Fits ⟨m', scopes⟩ ((State.outline ⟨m, scopes⟩).step c) := by
  refine ⟨hplain, ?_⟩
  simp only [State.outline, hm, hm', Outline.step_of_not_mark hc]

theorem fits_stepAfter {v : Json} {scopes : List Scope} (h : stepAfter v scopes p c = .ok s') :
    s'.Fits (Outline.step ⟨.outside, scopes.length⟩ c) := by
  unfold stepAfter at h
  split at h
  next hc =>
    cases h
    exact ⟨trivial, (Outline.step_of_not_mark (not_mark_of_isSpace hc) _).symm⟩
  next hc =>
    split at h
    case h_5 => cases h
    all_goals
      cases h
      exact ⟨trivial, rfl⟩

theorem ne_of_hexDigit? {d : Nat} (h : hexDigit? c = some d) :
    c ≠ .char '"' ∧ c ≠ .char '\\' := by
  constructor
  all_goals
    rintro rfl
    exact absurd h (by decide +revert)

def Container.opener : Container → Char
  | .array => '['
  | .object => '\x7b'

def opened (scopes : List Scope) : Container → State
  | .array => ⟨.value true, .items [] :: scopes⟩
  | .object => ⟨.key [] true, scopes⟩

def Mode.isValue : Mode → Bool
  | .value _ => true
  | _ => false

theorem isDelimiter_of_isSpace {c : CodePoint} (h : isSpace c) : IsDelimiter c := by
  simp only [isSpace, Bool.or_eq_true, decide_eq_true_eq] at h
  rcases h with ((rfl | rfl) | rfl) | rfl <;> exact isDelimiter_of_mem (by decide)

theorem isDelimiter_of_stepAfter {v : Json} {scopes : List Scope}
    (h : stepAfter v scopes p c = .ok s') : IsDelimiter c := by
  unfold stepAfter at h
  split at h
  next hc => exact isDelimiter_of_isSpace hc
  next =>
    split at h
    all_goals first | exact isDelimiter_of_mem (by decide) | cases h

theorem outline_of_value? {m : Mode} {v : Json} (h : m.value? = some v) : m.outline = {} := by
  cases m with
  | word | number | after => rfl
  | value | key | colon | string | escape | hex | minus => cases h

variable [Stack]

theorem step_of_value? {v : Json} (h : s.mode.value? = some v) (hc : IsDelimiter c) (p : Nat) :
    step s p c = stepAfter v s.scopes p c := by
  obtain ⟨mode, scopes⟩ := s
  cases mode with
  | value | key | colon | string | escape | hex | minus => cases h
  | word start w rest =>
      cases rest with
      | nil =>
          cases h
          rfl
      | cons r rest => cases h
  | number n phase =>
      simp only [Mode.value?, Option.ite_none_right_eq_some] at h
      simp only [step, hc.digit?]
      rw [stepNumber_of_complete h.1 hc, endNumber_of_value (NumberText.value_eq_ok.2 h.2)]
  | after w =>
      cases h
      rfl

theorem value?_of_step (hs : s.mode.Plain) (hm : s.mode.Begun) (hc : IsDelimiter c)
    (h : step s p c = .ok s') : ∃ v, s.mode.value? = some v := by
  obtain ⟨mode, scopes⟩ := s
  cases mode with
  | value | key | colon | string | escape | hex => cases hm
  | word start w rest =>
      cases rest with
      | nil => exact ⟨w, rfl⟩
      | cons r rest =>
          have hr : c ≠ .char r := hc.ne (hs r (by simp))
          simp [step, hr] at h
  | minus start =>
      have hI : c ≠ .char 'I' := hc.ne (by decide)
      simp [step, hc.digit?, hI] at h
  | number n phase =>
      simp only [step, hc.digit?] at h
      rcases stepNumber_eq_ok h with ⟨hphase, h⟩ | ⟨x, hx, rfl, -⟩
      · obtain ⟨v, hv, -⟩ := endNumber_eq_ok h
        exact ⟨v, by simp [Mode.value?, hphase, hv, Except.toOption]⟩
      · have hmem : ∀ x ∈ numberMarks, x.isAlphanum ∨ x ∈ ['.', '+', '-'] :=
          forall_mem_chars (by decide)
        exact absurd rfl (hc x (hmem x hx))
  | after v => exact ⟨v, rfl⟩

theorem openIn_eq_ok_iff {scopes : List Scope} {k : Container} :
    openIn scopes k s = .ok s' ↔ scopes.length < Stack.reading ∧ s = s' := by
  unfold openIn
  split <;> simp [*]

/-- What a step can do, to what is open above all. -/
inductive Moves (p : Nat) (c : CodePoint) : State → State → Prop
  | waits {m : Mode} {scopes : List Scope} (hc : isSpace c) (hm : m.outline.quoting = .outside)
      (h : ∀ (stack : Stack) scopes, @step stack ⟨m, scopes⟩ p c = .ok ⟨m, scopes⟩) :
      Moves p c ⟨m, scopes⟩ ⟨m, scopes⟩
  /-- Only the mode changes, and it would change so on any stack and in any scopes. -/
  | within {m m' : Mode} {scopes : List Scope}
      (h : ∀ (stack : Stack) scopes, @step stack ⟨m, scopes⟩ p c = .ok ⟨m', scopes⟩)
      (hm : m'.isValue = false) (hdepth : m'.outline.depth ≤ m.outline.depth)
      (hfits : m.Plain → ∀ scopes, State.Fits ⟨m', scopes⟩ ((State.outline ⟨m, scopes⟩).step c)) :
      Moves p c ⟨m, scopes⟩ ⟨m', scopes⟩
  | behind {m : Mode} {v : Json} {scopes : List Scope} {s' : State} (hv : m.value? = some v)
      (hc : IsDelimiter c) (h : stepAfter v scopes p c = .ok s') : Moves p c ⟨m, scopes⟩ s'
  | opens {mayClose : Bool} {scopes : List Scope} (k : Container) (hc : c = .char k.opener)
      (h : scopes.length < Stack.reading) : Moves p c ⟨.value mayClose, scopes⟩ (opened scopes k)
  | closes {scope : Scope} {rest : List Scope} (hc : c = .char ']') :
      Moves p c ⟨.value true, scope :: rest⟩ ⟨.after (.arr []), rest⟩
  | names {done : Table Text Json} {key : Text} {scopes : List Scope} (hc : c = .char ':') :
      Moves p c ⟨.colon done key, scopes⟩ ⟨.value false, .member done key :: scopes⟩

theorem step_opener (mayClose : Bool) (scopes : List Scope) (p : Nat) (k : Container) :
    step ⟨.value mayClose, scopes⟩ p (.char k.opener) = openIn scopes k (opened scopes k) := by
  cases mayClose <;> cases k <;> rfl

theorem beginValue_eq_ok {scopes : List Scope} (h : beginValue scopes p c = .ok s') :
    (∃ k : Container, c = .char k.opener ∧ scopes.length < Stack.reading ∧ s' = opened scopes k) ∨
      ∃ m', s' = ⟨m', scopes⟩ ∧ m'.isValue = false ∧ m'.outline.depth = 0 ∧
        (∀ scopes, State.Fits ⟨m', scopes⟩ (Outline.step ⟨.outside, scopes.length⟩ c)) ∧
        ∀ (stack : Stack) scopes, @beginValue stack scopes p c = .ok ⟨m', scopes⟩ := by
  unfold beginValue at h
  split at h
  case h_2 =>
    obtain ⟨hlimit, rfl⟩ := openIn_eq_ok_iff.1 h
    exact .inl ⟨.object, rfl, hlimit, rfl⟩
  case h_3 =>
    obtain ⟨hlimit, rfl⟩ := openIn_eq_ok_iff.1 h
    exact .inl ⟨.array, rfl, hlimit, rfl⟩
  case h_10 =>
    split at h
    case h_3 => cases h
    case h_1 hd | h_2 hd =>
      cases h
      exact .inr ⟨_, rfl, rfl, rfl,
        fits_of_not_mark (m := .value false) (not_mark_of_digit? hd) rfl rfl trivial,
        fun _ scopes => by simp [beginValue, *]⟩
  case h_1 | h_4 =>
    cases h
    exact .inr ⟨_, rfl, rfl, rfl, fun _ => ⟨trivial, rfl⟩, fun _ _ => rfl⟩
  case h_5 | h_6 | h_7 | h_8 | h_9 =>
    cases h
    exact .inr ⟨_, rfl, rfl, rfl, fun _ => ⟨forall_mem_chars (by decide), rfl⟩,
      fun _ _ => rfl⟩

theorem step_value_of_ne (hc : ¬ isSpace c) (hclose : c ≠ .char ']') (mayClose : Bool)
    (scopes : List Scope) (p : Nat) :
    step ⟨.value mayClose, scopes⟩ p c = beginValue scopes p c := by
  cases mayClose <;> simp [step, hc, hclose]

theorem ne_of_beginValue {scopes : List Scope} (h : beginValue scopes p c = .ok s') :
    c ≠ .char ']' := by
  rintro rfl
  cases h

theorem moves_of_endNumber {n : NumberText} {phase : NumberPhase} {scopes : List Scope}
    (hphase : phase.complete) (h : endNumber n scopes p c = .ok s') :
    Moves p c ⟨.number n phase, scopes⟩ s' := by
  obtain ⟨v, hv, h⟩ := endNumber_eq_ok h
  exact .behind (by simp [Mode.value?, hphase, hv, Except.toOption]) (isDelimiter_of_stepAfter h) h

section Modes

variable {scopes : List Scope} {role : Role} {start : Nat} {body : List Unit16}

theorem moves_of_value {mayClose : Bool} (h : step ⟨.value mayClose, scopes⟩ p c = .ok s') :
    Moves p c ⟨.value mayClose, scopes⟩ s' := by
  simp only [step] at h
  split at h
  next hc =>
    cases h
    exact .waits hc rfl (fun _ scopes => by simp [step, hc])
  next hc =>
    split at h
    next =>
      cases h
      exact .closes rfl
    next =>
      rcases beginValue_eq_ok h with ⟨k, hk, hlimit, rfl⟩ | ⟨m', rfl, hm, hdepth, hfits, hbegin⟩
      · exact .opens k hk hlimit
      · have hclose := ne_of_beginValue h
        exact .within
          (fun _ scopes => (step_value_of_ne hc hclose mayClose scopes p).trans (hbegin _ scopes))
          hm (Nat.le_of_eq hdepth) (fun _ => hfits)

theorem moves_of_key {done : Table Text Json} {mayClose : Bool}
    (h : step ⟨.key done mayClose, scopes⟩ p c = .ok s') :
    Moves p c ⟨.key done mayClose, scopes⟩ s' := by
  simp only [step] at h
  split at h
  next hc =>
    cases h
    exact .waits hc rfl (fun _ scopes => by simp [step, hc])
  next hc =>
    split at h
    next hquote =>
      cases h
      subst hquote
      exact .within (fun _ _ => rfl) rfl (Nat.le_refl _) (fun _ _ => ⟨trivial, rfl⟩)
    next hquote =>
      split at h
      next hclose =>
        cases h
        simp only [Bool.and_eq_true, decide_eq_true_eq] at hclose
        obtain ⟨rfl, rfl⟩ := hclose
        exact .within (fun _ _ => rfl) rfl (Nat.zero_le _) (fun _ _ => ⟨trivial, rfl⟩)
      next => cases h

theorem moves_of_colon {done : Table Text Json} {key : Text}
    (h : step ⟨.colon done key, scopes⟩ p c = .ok s') : Moves p c ⟨.colon done key, scopes⟩ s' := by
  simp only [step] at h
  split at h
  next hc =>
    cases h
    exact .waits hc rfl (fun _ scopes => by simp [step, hc])
  next hc =>
    split at h
    next hcolon =>
      cases h
      exact .names hcolon
    next => cases h

theorem moves_of_string (h : step ⟨.string role start body, scopes⟩ p c = .ok s') :
    Moves p c ⟨.string role start body, scopes⟩ s' := by
  simp only [step] at h
  split at h
  next hquote =>
    cases h
    subst hquote
    cases role with
    | value | key =>
        exact .within (fun _ _ => rfl) rfl (Nat.le_refl _) (fun _ _ => ⟨trivial, rfl⟩)
  next hquote =>
    split at h
    next hescape =>
      cases h
      subst hescape
      exact .within (fun _ _ => rfl) rfl (Nat.le_refl _) (fun _ _ => ⟨trivial, rfl⟩)
    next hescape =>
      split at h
      next => cases h
      next hcontrol =>
        cases h
        refine .within (fun _ scopes => by simp [step, hquote, hescape, hcontrol]) rfl
          (Nat.le_refl _) (fun _ scopes => ⟨trivial, ?_⟩)
        simp [State.outline, Mode.outline, Outline.step, hquote, hescape]

theorem moves_of_escape (h : step ⟨.escape role start body, scopes⟩ p c = .ok s') :
    Moves p c ⟨.escape role start body, scopes⟩ s' := by
  simp only [step] at h
  split at h
  next hu =>
    cases h
    subst hu
    exact .within (fun _ _ => rfl) rfl (Nat.le_refl _) (fun _ _ => ⟨trivial, rfl⟩)
  next hu =>
    split at h
    next x hx =>
      cases h
      exact .within (fun _ scopes => by simp [step, hu, hx]) rfl (Nat.le_refl _)
        (fun _ _ => ⟨trivial, rfl⟩)
    next => cases h

theorem moves_of_hex {digits : List Nat}
    (h : step ⟨.hex role start body digits, scopes⟩ p c = .ok s') :
    Moves p c ⟨.hex role start body digits, scopes⟩ s' := by
  simp only [step] at h
  split at h
  case h_3 => cases h
  case h_1 hk | h_2 hk =>
    cases h
    refine .within (fun _ scopes => by simp [step, *]) rfl (Nat.le_refl _)
      (fun _ scopes => ⟨trivial, ?_⟩)
    simp [State.outline, Mode.outline, Outline.step, ne_of_hexDigit? hk]

theorem moves_of_word {v : Json} {rest : List Char}
    (h : step ⟨.word start v rest, scopes⟩ p c = .ok s') :
    Moves p c ⟨.word start v rest, scopes⟩ s' := by
  simp only [step] at h
  split at h
  next => exact .behind rfl (isDelimiter_of_stepAfter h) h
  next r rest =>
    split at h
    next hc =>
      cases h
      subst hc
      have hmark (hplain : Mode.Plain (.word start v (r :: rest))) :=
        not_mark_of_isAlpha (hplain r List.mem_cons_self)
      cases rest with
      | nil =>
          exact .within (fun _ _ => by simp [step]) rfl (Nat.le_refl _)
            (fun hplain => fits_of_not_mark (hmark hplain) rfl rfl trivial)
      | cons r' rest =>
          exact .within (fun _ _ => by simp [step]) rfl (Nat.le_refl _)
            (fun hplain => fits_of_not_mark (hmark hplain) rfl rfl
              fun x hx => hplain x (List.mem_cons_of_mem r hx))
    next => cases h

theorem moves_of_minus (h : step ⟨.minus start, scopes⟩ p c = .ok s') :
    Moves p c ⟨.minus start, scopes⟩ s' := by
  simp only [step] at h
  split at h
  case h_1 hd | h_2 hd =>
    cases h
    exact .within (fun _ scopes => by simp [step, *]) rfl (Nat.le_refl _)
      (fun _ => fits_of_not_mark (not_mark_of_digit? hd) rfl rfl trivial)
  case h_3 hd =>
    split at h
    next hI =>
      cases h
      subst hI
      exact .within (fun _ _ => rfl) rfl (Nat.le_refl _)
        (fun _ _ => ⟨forall_mem_chars (by decide), rfl⟩)
    next => cases h

theorem moves_of_number {n : NumberText} {phase : NumberPhase}
    (h : step ⟨.number n phase, scopes⟩ p c = .ok s') : Moves p c ⟨.number n phase, scopes⟩ s' := by
  simp only [step] at h
  split at h
  next d hd =>
    cases phase with
    | zero => exact moves_of_endNumber rfl h
    | whole | point | fraction | exponentMark | exponentSign | exponent =>
        cases h
        exact .within (fun _ scopes => by simp [step, hd, stepDigit]) rfl (Nat.le_refl _)
          (fun _ => fits_of_not_mark (not_mark_of_digit? hd) rfl rfl trivial)
  next hd =>
    rcases stepNumber_eq_ok h with ⟨hphase, h⟩ | ⟨x, hx, rfl, n', phase', rfl, hstep⟩
    · exact moves_of_endNumber hphase h
    · exact .within (fun _ scopes => by simp [step, hd, hstep]) rfl (Nat.le_refl _)
        (fun _ => fits_of_not_mark (not_mark_of_mem_numberMarks hx) rfl rfl trivial)

end Modes

theorem moves_of_step (h : step s p c = .ok s') : Moves p c s s' := by
  obtain ⟨mode, scopes⟩ := s
  cases mode with
  | value mayClose => exact moves_of_value h
  | key done mayClose => exact moves_of_key h
  | colon done key => exact moves_of_colon h
  | string role start body => exact moves_of_string h
  | escape role start body => exact moves_of_escape h
  | hex role start body digits => exact moves_of_hex h
  | word start v rest => exact moves_of_word h
  | minus start => exact moves_of_minus h
  | number n phase => exact moves_of_number h
  | after v => exact .behind rfl (isDelimiter_of_stepAfter h) h

theorem fits_step (hs : s.mode.Plain) (h : step s p c = .ok s') : s'.Fits (s.outline.step c) := by
  cases moves_of_step h with
  | waits hc hm =>
      refine ⟨hs, ?_⟩
      simp only [State.outline, hm, Outline.step_of_not_mark (not_mark_of_isSpace hc)]
  | within _ _ _ hfits => exact hfits hs _
  | @behind m v scopes _ hv hc h =>
      have hfits := fits_stepAfter h
      rwa [State.outline, outline_of_value? hv]
  | opens k hc =>
      subst hc
      cases k <;> exact ⟨trivial, rfl⟩
  | closes hc | names hc =>
      subst hc
      exact ⟨trivial, rfl⟩

theorem run_append_eq_ok {t u : Text} : run s p (t ++ u) = .ok s' ↔
    ∃ m, run s p t = .ok m ∧ run m (p + t.length) u = .ok s' := by
  rw [run_append]
  cases run s p t with
  | error e => simp [Except.bind]
  | ok m => simp [Except.bind]

theorem run_cons_eq_ok {r : Text} : run s p (c :: r) = .ok s' ↔
    ∃ m, step s p c = .ok m ∧ run m (p + 1) r = .ok s' := by
  rw [run]
  cases step s p c with
  | error e => simp
  | ok m => simp

theorem fits_run {t : Text} (hs : s.mode.Plain) (h : run s p t = .ok s') :
    s'.Fits (t.foldl Outline.step s.outline) := by
  induction t generalizing s p with
  | nil =>
      cases h
      exact ⟨hs, rfl⟩
  | cons c r ih =>
      obtain ⟨m, hm, h⟩ := run_cons_eq_ok.1 h
      obtain ⟨hplain, houtline⟩ := fits_step hs hm
      rw [List.foldl_cons, ← houtline]
      exact ih hplain h

end JsonnetPreview.Json
