import JsonnetPreview.Decimal.Binary64

namespace JsonnetPreview

structure Decimal where
  coefficient : Nat
  exponent : Int
  deriving DecidableEq, Repr

namespace Decimal

def dropZeros (d : Decimal) : Decimal :=
  if d.coefficient ≠ 0 ∧ d.coefficient % 10 = 0 then
    dropZeros ⟨d.coefficient / 10, d.exponent + 1⟩
  else d
termination_by d.coefficient
decreasing_by omega

end Decimal

namespace Magnitude

/-- The magnitude nearest to a decimal, or none if it is too large. Decimals far beyond every
magnitude, and far below the least one, are told by their exponent alone. -/
def ofDecimal (d : Decimal) : Option Magnitude :=
  if d.coefficient = 0 then some zero
  else if 400 < d.exponent then none
  else if d.exponent + d.coefficient.log2 + 1 < -1100 then some zero
  else
    match d.exponent with
    | .ofNat n => round (d.coefficient * Nat.pow 10 n) 1
    | .negSucc n => round d.coefficient (Nat.pow 10 (n + 1))

def exact (x : Magnitude) : Decimal :=
  if 1074 ≤ x.scale then ⟨x.mantissa * Nat.pow 2 (x.scale - 1074), 0⟩
  else ⟨x.mantissa * Nat.pow 5 (1074 - x.scale), -((1074 - x.scale : Nat) : Int)⟩

/-- The number `p` for which a value that is not zero lies between `10 ^ (p - 1)` and `10 ^ p`. -/
def order (x : Magnitude) : Int :=
  ((Nat.toDigits 10 (x.numerator * Nat.pow 10 400 / Nat.pow 2 1074)).length : Int) - 400

/-- The two neighbours of a value among the decimals with an exponent, the nearer one first, and of
two equally near ones the even one. -/
def neighbours (x : Magnitude) (exponent : Int) : List Decimal :=
  let (a, b) :=
    match exponent with
    | .ofNat e => (x.numerator, Nat.pow 2 1074 * Nat.pow 10 e)
    | .negSucc e => (x.numerator * Nat.pow 10 (e + 1), Nat.pow 2 1074)
  let q := a / b
  let r := a % b
  let pair := if b < 2 * r || (2 * r == b && q % 2 == 1) then [q + 1, q] else [q, q + 1]
  pair.map fun c => Decimal.dropZeros ⟨c, exponent⟩

/-- The decimal with the fewest digits that reads back as `x`, and of these the nearest one, where
the digits begin at an order. Seventeen digits are enough for every magnitude. -/
def shortestAt (x : Magnitude) (order : Int) : Decimal :=
  ((List.range 17).findSome? fun n =>
    (x.neighbours (order - (n + 1 : Nat))).find? fun d => ofDecimal d = some x).getD x.exact

def shortest (x : Magnitude) : Decimal := if x.mantissa = 0 then ⟨0, 0⟩ else x.shortestAt x.order

theorem mul_pow_split (m : Nat) {k n : Nat} (h : n ≤ k) :
    m * Nat.pow 2 (k - n) * Nat.pow 2 n = m * Nat.pow 2 k := by
  rw [Nat.mul_assoc]
  exact congrArg (m * ·) (Nat.pow_sub_mul_pow 2 h)

theorem ofDecimal_exact (x : Magnitude) : ofDecimal x.exact = some x := by
  obtain ⟨m, k, hm, hk, hf⟩ := x
  by_cases h0 : m = 0
  · rcases hf with rfl | hf
    · subst h0
      simp [exact, ofDecimal, zero, -Nat.reducePow]
    · rw [Nat.pow_eq] at hf
      omega
  by_cases hge : 1074 ≤ k
  · have hc : m * Nat.pow 2 (k - 1074) ≠ 0 :=
      Nat.mul_ne_zero h0 (Nat.ne_of_gt (Nat.two_pow_pos _))
    simp only [exact, hge, if_true, ofDecimal]
    rw [if_neg hc, if_neg (by omega), if_neg (by omega)]
    change round (m * Nat.pow 2 (k - 1074) * 1) 1 = _
    rw [Nat.mul_one]
    refine round_self ⟨m, k, hm, hk, hf⟩ Nat.one_pos ?_
    rw [numerator, Nat.mul_one]
    generalize 1074 = n at hge ⊢
    exact mul_pow_split m hge
  · obtain ⟨j, hj⟩ : ∃ j, 1074 - k = j + 1 := ⟨1073 - k, by omega⟩
    have hc : m * Nat.pow 5 (j + 1) ≠ 0 :=
      Nat.mul_ne_zero h0 (Nat.ne_of_gt (Nat.pow_pos (by decide)))
    have hsplit : Nat.pow 2 k * Nat.pow 2 (j + 1) = Nat.pow 2 1074 := by
      have hk : k + (j + 1) = 1074 := by omega
      rw [← hk]
      exact (Nat.pow_add 2 k (j + 1)).symm
    have hten : Nat.pow 10 (j + 1) = Nat.pow 2 (j + 1) * Nat.pow 5 (j + 1) :=
      Nat.mul_pow 2 5 (j + 1)
    simp only [exact, hge, if_false, hj, ofDecimal]
    rw [if_neg hc, if_neg (by omega), if_neg (by omega)]
    have hpos : 0 < Nat.pow 10 (j + 1) := Nat.pow_pos (by decide)
    refine round_self ⟨m, k, hm, hk, hf⟩ hpos ?_
    rw [numerator, ← hsplit, hten]
    ac_rfl

theorem ofDecimal_shortestAt (x : Magnitude) (order : Int) :
    ofDecimal (x.shortestAt order) = some x := by
  rw [shortestAt]
  cases h : (List.range 17).findSome? fun n =>
      (x.neighbours (order - (n + 1 : Nat))).find? fun d => ofDecimal d = some x with
  | none => exact ofDecimal_exact x
  | some d =>
    obtain ⟨n, _, hn⟩ := List.exists_of_findSome?_eq_some h
    simpa using List.find?_some hn

theorem ofDecimal_shortest (x : Magnitude) : ofDecimal x.shortest = some x := by
  rw [shortest]
  split
  next h0 =>
    obtain ⟨m, k, hm, hk, hf⟩ := x
    rcases hf with rfl | hf
    · subst h0
      simp [ofDecimal, zero]
    · rw [Nat.pow_eq] at hf
      simp only at h0
      omega
  next => exact ofDecimal_shortestAt x x.order

end Magnitude
end JsonnetPreview
