import JsonnetPreview.Json.Printer
import JsonnetPreview.Proofs.Json.Moves
import JsonnetPreview.Proofs.Text.Utf8
import Mathlib.Data.List.Chain

namespace JsonnetPreview

namespace CodePoint

def IsHigh (c : CodePoint) : Prop := 0xD800 ≤ c.value ∧ c.value < 0xDC00

def IsLow (c : CodePoint) : Prop := 0xDC00 ≤ c.value ∧ c.value < 0xE000

theorem not_isHigh_char (x : Char) : ¬ (char x).IsHigh := by
  intro ⟨hlow, hhigh⟩
  have hx := value_char x
  omega

end CodePoint

/-- No two halves of a surrogate pair stand together. -/
def Text.Unpaired (t : Text) : Prop := t.IsChain fun c d => ¬ (c.IsHigh ∧ d.IsLow)

namespace Json

/-- The texts that come back from a string in a style. -/
def Style.Keeps (s : Style) (t : Text) : Prop := s.ascii = true → t.Unpaired

theorem Style.keeps_tail {s : Style} {c : CodePoint} {t : Text} (h : s.Keeps (c :: t)) :
    s.Keeps t := fun hs => (h hs).tail

theorem hexDigit?_hexDigit {d : Nat} (h : d < 16) : hexDigit? (hexDigit d) = some d := by
  have hall : ∀ d < 16, hexDigit? (hexDigit d) = some d := by decide
  exact hall d h

def highHalf (n : Nat) : Nat := 0xD800 + (n - 0x10000) / 0x400

def lowHalf (n : Nat) : Nat := 0xDC00 + (n - 0x10000) % 0x400

/-- An element, what is written for it, and what that is read as. -/
inductive Written (ascii : Bool) : CodePoint → Text → List Unit16 → Prop
  | plain {c : CodePoint} (hquote : c ≠ .char '"') (hescape : c ≠ .char '\\')
      (hcontrol : ¬ c.value < 0x20) : Written ascii c [c] [.plain c]
  | named {x y : Char} (hy : CodePoint.char y ≠ .char 'u') (h : escapedChar? (.char y) = some x) :
      Written ascii (.char x) [.char '\\', .char y] [.plain (.char x)]
  | numbered {c : CodePoint} (h : c.value < 0x20 ∨ ascii = true ∧ c.value < 0x10000) :
      Written ascii c (escape16 c.value) [.escaped c.value]
  | paired {c : CodePoint} (h : 0x10000 ≤ c.value) : Written ascii c
      (escape16 (highHalf c.value) ++ escape16 (lowHalf c.value))
      [.escaped (highHalf c.value), .escaped (lowHalf c.value)]

theorem written_writeElement (ascii : Bool) (c : CodePoint) :
    ∃ us, Written ascii c (writeElement ascii c) us := by
  unfold writeElement
  split
  case h_8 c hquote hescape _ _ _ _ _ =>
    split
    next h =>
      simp only [Bool.or_eq_true, Bool.and_eq_true, decide_eq_true_eq] at h
      unfold escapeUnicode
      split
      next hshort => exact ⟨_, .numbered (h.imp id fun h => ⟨h.1, hshort⟩)⟩
      next hlong => exact ⟨_, .paired (Nat.not_lt.1 hlong)⟩
    next h =>
      simp only [Bool.or_eq_true, decide_eq_true_eq, not_or] at h
      exact ⟨_, .plain hquote hescape h.1⟩
  all_goals exact ⟨_, .named (by decide) rfl⟩

variable {p : Nat} {scopes : List Scope} {role : Role} {start : Nat} {body : List Unit16}

theorem run_escape16 [Stack] {n : Nat} (hn : n < 0x10000) :
    run ⟨.string role start body, scopes⟩ p (escape16 n) =
      .ok ⟨.string role start (.escaped n :: body), scopes⟩ := by
  have hdigit (k : Nat) : hexDigit? (hexDigit (k % 16)) = some (k % 16) :=
    hexDigit?_hexDigit (Nat.mod_lt k (by decide))
  have hvalue :
      ((n / 0x1000 % 16 * 16 + n / 0x100 % 16) * 16 + n / 0x10 % 16) * 16 + n % 16 = n := by
    omega
  have hu : CodePoint.char '\\' ≠ .char '"' := by decide
  simp [escape16, run, step, hdigit, hvalue, hu]

theorem Written.run [Stack] {ascii : Bool} {c : CodePoint} {t : Text} {us : List Unit16}
    (h : Written ascii c t us) : run ⟨.string role start body, scopes⟩ p t =
      .ok ⟨.string role start (us.reverse ++ body), scopes⟩ := by
  cases h with
  | plain hquote hescape hcontrol => simp [Json.run, step, hquote, hescape, hcontrol]
  | named hy h =>
      have hquote : CodePoint.char '\\' ≠ .char '"' := by decide
      simp [Json.run, step, hquote, hy, h]
  | numbered h => exact run_escape16 (by omega)
  | paired h =>
      have hlt := c.value_lt
      exact run_append_eq_ok.2 ⟨_, run_escape16 (by unfold highHalf; omega),
        run_escape16 (by unfold lowHalf; omega)⟩

theorem ofValue_halves {c : CodePoint} (h : 0x10000 ≤ c.value) :
    CodePoint.ofValue
      (0x10000 + (highHalf c.value - 0xD800) * 0x400 + (lowHalf c.value - 0xDC00)) = c := by
  have hvalue : 0x10000 + (highHalf c.value - 0xD800) * 0x400 + (lowHalf c.value - 0xDC00) =
      c.value := by
    unfold highHalf lowHalf
    omega
  rw [hvalue, c.ofValue_value]

/-- The elements that follow are not taken for the second half of a pair. -/
theorem assemble_escaped {n : Nat} {us : List Unit16}
    (h : ∀ m vs, us = .escaped m :: vs → ¬ (0xD800 ≤ n ∧ n < 0xDC00 ∧ 0xDC00 ≤ m ∧ m < 0xE000)) :
    assemble (.escaped n :: us) = CodePoint.ofValue n :: assemble us := by
  cases us with
  | nil => simp [assemble]
  | cons u us =>
      cases u with
      | plain c => simp [assemble]
      | escaped m => rw [assemble, if_neg (h m us rfl)]

inductive WrittenAll (ascii : Bool) : Text → Text → List Unit16 → Prop
  | nil : WrittenAll ascii [] [] []
  | cons {c : CodePoint} {r u w : Text} {us ws : List Unit16} (hc : Written ascii c u us)
      (hr : WrittenAll ascii r w ws) : WrittenAll ascii (c :: r) (u ++ w) (us ++ ws)

theorem exists_writtenAll (ascii : Bool) (t : Text) :
    ∃ us, WrittenAll ascii t (t.flatMap (writeElement ascii)) us := by
  induction t with
  | nil => exact ⟨_, .nil⟩
  | cons c r ih =>
      obtain ⟨us, hus⟩ := written_writeElement ascii c
      obtain ⟨ws, hws⟩ := ih
      exact ⟨_, .cons hus hws⟩

namespace WrittenAll

variable {ascii : Bool} {t w : Text} {us : List Unit16}

protected theorem run [Stack] (h : WrittenAll ascii t w us) :
    run ⟨.string role start body, scopes⟩ p w =
      .ok ⟨.string role start (us.reverse ++ body), scopes⟩ := by
  induction h generalizing p body with
  | nil => rfl
  | cons hc _ ih =>
      rw [List.reverse_append, List.append_assoc]
      exact run_append_eq_ok.2 ⟨_, hc.run, ih⟩

theorem exists_eq_cons {m : Nat} (h : WrittenAll ascii t w us) (hm : 0xDC00 ≤ m)
    (hus : us.head? = some (.escaped m)) : ∃ d r, t = d :: r ∧ d.value = m := by
  cases h with
  | nil => cases hus
  | @cons d r _ _ _ _ hc =>
      refine ⟨d, r, rfl, ?_⟩
      have hlt := d.value_lt
      cases hc with
      | plain | named => cases hus
      | numbered =>
          cases hus
          rfl
      | paired =>
          cases hus
          unfold highHalf at hm
          omega

protected theorem assemble {s : Style} (h : WrittenAll s.ascii t w us) (hs : s.Keeps t) :
    assemble us = t := by
  induction h with
  | nil => rfl
  | @cons c r _ _ _ vs hc hr ih =>
      have hvs := ih (Style.keeps_tail hs)
      cases hc with
      | plain | named => exact congrArg _ hvs
      | numbered hvalue =>
          refine (assemble_escaped fun m ws hws hpair => ?_).trans
            (congrArg₂ _ c.ofValue_value hvs)
          have hhead : vs.head? = some (.escaped m) := congrArg List.head? hws
          obtain ⟨d, r, rfl, rfl⟩ := hr.exists_eq_cons hpair.2.2.1 hhead
          have hascii : s.ascii = true := (hvalue.resolve_left (by omega)).1
          exact (List.isChain_cons_cons.1 (hs hascii)).1
            ⟨⟨hpair.1, hpair.2.1⟩, hpair.2.2.1, hpair.2.2.2⟩
      | paired h =>
          have hlt := c.value_lt
          have hhalves : 0xD800 ≤ highHalf c.value ∧ highHalf c.value < 0xDC00 ∧
              0xDC00 ≤ lowHalf c.value ∧ lowHalf c.value < 0xE000 := by
            unfold highHalf lowHalf
            omega
          show Json.assemble (.escaped (highHalf c.value) :: .escaped (lowHalf c.value) :: vs) = _
          rw [Json.assemble, if_pos hhalves, ofValue_halves h, hvs]

end WrittenAll

theorem isLow_of_ofValue {n : Nat} (h : (CodePoint.ofValue n).IsLow) : 0xDC00 ≤ n ∧ n < 0xE000 := by
  unfold CodePoint.IsLow at h
  rwa [CodePoint.value_ofValue (by omega)] at h

theorem isHigh_of_ofValue {n : Nat} (h : (CodePoint.ofValue n).IsHigh) :
    0xD800 ≤ n ∧ n < 0xDC00 := by
  unfold CodePoint.IsHigh at h
  rwa [CodePoint.value_ofValue (by omega)] at h

theorem exists_escaped_of_isLow {us : List Unit16}
    (hplain : ∀ c, .plain c ∈ us → ∃ x : Char, c = .char x) {d : CodePoint} {r : Text}
    (h : assemble us = d :: r) (hd : d.IsLow) :
    ∃ m ws, us = .escaped m :: ws ∧ 0xDC00 ≤ m ∧ m < 0xE000 := by
  fun_cases assemble us with
  | case1 => cases h
  | case2 c us =>
      obtain ⟨x, rfl⟩ := hplain c List.mem_cons_self
      rw [assemble] at h
      rw [← (List.cons.inj h).1] at hd
      have hx := CodePoint.value_char x
      unfold CodePoint.IsLow at hd
      omega
  | case3 n m us hpair =>
      rw [assemble, if_pos hpair] at h
      rw [← (List.cons.inj h).1] at hd
      have hlow := isLow_of_ofValue hd
      omega
  | case4 n m us hpair =>
      rw [assemble, if_neg hpair] at h
      rw [← (List.cons.inj h).1] at hd
      exact ⟨n, _, rfl, isLow_of_ofValue hd⟩
  | case5 n us hus =>
      rw [assemble_escaped fun m ws hws => absurd hws (hus m ws)] at h
      rw [← (List.cons.inj h).1] at hd
      exact ⟨n, us, rfl, isLow_of_ofValue hd⟩

theorem unpaired_cons {c : CodePoint} {t : Text} (ht : t.Unpaired)
    (h : ∀ d r, t = d :: r → ¬ (c.IsHigh ∧ d.IsLow)) : Text.Unpaired (c :: t) := by
  cases t with
  | nil => exact .singleton c
  | cons d r => exact .cons_cons (h d r rfl) ht

theorem unpaired_of_isScalar {t : Text} (h : t.IsScalar) : t.Unpaired := by
  induction t with
  | nil => exact .nil
  | cons c t ih =>
      obtain ⟨⟨x, rfl⟩, ht⟩ := List.forall_mem_cons.1 h
      exact unpaired_cons (ih ht) fun d r hr hhalves => CodePoint.not_isHigh_char x hhalves.1

theorem unpaired_assemble {us : List Unit16}
    (hplain : ∀ c, .plain c ∈ us → ∃ x : Char, c = .char x) : (assemble us).Unpaired := by
  fun_induction assemble us with
  | case1 => exact .nil
  | case2 c us ih =>
      obtain ⟨x, rfl⟩ := hplain c List.mem_cons_self
      exact unpaired_cons (ih fun c hc => hplain c (List.mem_cons_of_mem _ hc))
        fun d r hr hhalves => CodePoint.not_isHigh_char x hhalves.1
  | case3 n m us hpair ih =>
      refine unpaired_cons (ih fun c hc => hplain c (by simp [hc])) fun d r hr hhalves => ?_
      have hhigh := isHigh_of_ofValue hhalves.1
      omega
  | case4 n m us hpair ih =>
      have hus : ∀ c, .plain c ∈ Unit16.escaped m :: us → ∃ x : Char, c = .char x :=
        fun c hc => hplain c (List.mem_cons_of_mem _ hc)
      refine unpaired_cons (ih hus) fun d r hr hhalves => hpair ?_
      obtain ⟨hlow, hlt⟩ := isHigh_of_ofValue hhalves.1
      obtain ⟨m', ws, hws, hm⟩ := exists_escaped_of_isLow hus hr hhalves.2
      cases hws
      exact ⟨hlow, hlt, hm⟩
  | case5 n us hus ih =>
      have htail : ∀ c, .plain c ∈ us → ∃ x : Char, c = .char x :=
        fun c hc => hplain c (List.mem_cons_of_mem _ hc)
      refine unpaired_cons (ih htail) fun d r hr hhalves => ?_
      obtain ⟨m, ws, hws, -⟩ := exists_escaped_of_isLow htail hr hhalves.2
      exact hus m ws hws

theorem run_quoted [Stack] {s : Style} {t : Text} (h : s.Keeps t) :
    run ⟨.string role start [], scopes⟩ p (t.flatMap (writeElement s.ascii) ++ [.char '"']) =
      .ok (match role with
        | .value => ⟨.after (.str t), scopes⟩
        | .key done => ⟨.colon done t, scopes⟩) := by
  obtain ⟨us, hus⟩ := exists_writtenAll s.ascii t
  refine run_append_eq_ok.2 ⟨_, hus.run, run_cons_eq_ok.2 ⟨_, rfl, ?_⟩⟩
  cases role <;>
    simp only [run, closeString, List.append_nil, List.reverse_reverse, hus.assemble h]

/-- A string is read as what it is written for. -/
theorem run_writeString [Stack] {s : Style} {t : Text} (h : s.Keeps t) (mayClose : Bool) :
    run ⟨.value mayClose, scopes⟩ p (writeString s.ascii t) = .ok ⟨.after (.str t), scopes⟩ := by
  refine run_cons_eq_ok.2 ⟨⟨.string .value p [], scopes⟩, ?_, run_quoted h⟩
  cases mayClose <;> rfl

theorem run_writeString_key [Stack] {s : Style} {t : Text} (h : s.Keeps t) (done : Table Text Json)
    (mayClose : Bool) : run ⟨.key done mayClose, scopes⟩ p (writeString s.ascii t) =
      .ok ⟨.colon done t, scopes⟩ :=
  run_cons_eq_ok.2 ⟨⟨.string (.key done) p [], scopes⟩, rfl, run_quoted h⟩

end Json
end JsonnetPreview
