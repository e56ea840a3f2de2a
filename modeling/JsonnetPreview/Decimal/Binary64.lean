
namespace JsonnetPreview

/-- The value `mantissa * 2 ^ scale / 2 ^ 1074`. Only a mantissa with all its 53 bits may be scaled,
so each value is written in one way. -/
structure Magnitude where
  mantissa : Nat
  scale : Nat
  mantissa_lt : mantissa < Nat.pow 2 53
  scale_le : scale ≤ 2045
  full : scale = 0 ∨ Nat.pow 2 52 ≤ mantissa
  deriving DecidableEq

inductive Binary64 where
  | finite (negative : Bool) (magnitude : Magnitude)
  | infinite (negative : Bool)
  | nan
  deriving DecidableEq

namespace Magnitude

def zero : Magnitude := ⟨0, 0, by decide, by decide, .inl rfl⟩

instance : Repr Magnitude where
  reprPrec x _ := f!"{x.mantissa} * 2 ^ {x.scale} / 2 ^ 1074"

/-- The value is `numerator / 2 ^ 1074`. -/
def numerator (x : Magnitude) : Nat := x.mantissa * Nat.pow 2 x.scale

def ofParts? (mantissa scale : Nat) : Option Magnitude :=
  if mantissa = Nat.pow 2 53 then
    if h : scale + 1 ≤ 2045 then
      some ⟨Nat.pow 2 52, scale + 1, by decide, h, .inr (Nat.le_refl _)⟩
    else none
  else if h : mantissa < Nat.pow 2 53 ∧ scale ≤ 2045 ∧ (scale = 0 ∨ Nat.pow 2 52 ≤ mantissa) then
    some ⟨mantissa, scale, h.1, h.2.1, h.2.2⟩
  else none

/-- The quotient rounded to the nearest natural number, and a half to the even one. -/
def divideToEven (a b : Nat) : Nat :=
  let q := a / b
  let r := a % b
  if b < 2 * r || (2 * r == b && q % 2 == 1) then q + 1 else q

def excess (a b : Nat) : Nat := (a / b).log2 - 52

/-- The magnitude nearest to `a / b`, of two equally near ones that with the even mantissa, or none
if `a / b` is beyond them all. -/
def round (a b : Nat) : Option Magnitude :=
  let a := a * Nat.pow 2 1074
  let scale := excess a b
  ofParts? (divideToEven a (b * Nat.pow 2 scale)) scale

theorem divideToEven_mul (n : Nat) {b : Nat} (hb : 0 < b) : divideToEven (n * b) b = n := by
  have hr : n * b % b = 0 := Nat.mul_mod_left n b
  have hq : n * b / b = n := Nat.mul_div_cancel n hb
  have h0 : (0 == b) = false := by simpa using Nat.ne_of_lt hb
  simp [divideToEven, hr, hq, h0]

theorem log2_mul_two_pow {m k : Nat} (hm : m ≠ 0) : (m * Nat.pow 2 k).log2 = m.log2 + k := by
  rw [Nat.pow_eq]
  have hne : m * 2 ^ k ≠ 0 := Nat.mul_ne_zero hm (Nat.ne_of_gt (Nat.two_pow_pos k))
  have hlow : 2 ^ m.log2 ≤ m := (Nat.le_log2 hm).1 (Nat.le_refl _)
  have hhigh : m < 2 ^ (m.log2 + 1) := (Nat.log2_lt hm).1 (Nat.lt_succ_self _)
  have hge : m.log2 + k ≤ (m * 2 ^ k).log2 := by
    rw [Nat.le_log2 hne, Nat.pow_add]
    exact Nat.mul_le_mul_right _ hlow
  have hlt : (m * 2 ^ k).log2 < m.log2 + 1 + k := by
    rw [Nat.log2_lt hne, Nat.pow_add]
    exact Nat.mul_lt_mul_of_pos_right hhigh (Nat.two_pow_pos k)
  omega

theorem excess_numerator (x : Magnitude) : x.numerator.log2 - 52 = x.scale := by
  obtain ⟨m, k, hm, hk, hf⟩ := x
  rw [Nat.pow_eq] at hf
  by_cases h0 : m = 0
  · rcases hf with rfl | hf
    · subst h0
      rfl
    · omega
  · simp only [numerator, log2_mul_two_pow h0]
    have hlt : m.log2 < 53 := (Nat.log2_lt h0).2 hm
    rcases hf with rfl | hf
    · omega
    · have hge : 52 ≤ m.log2 := (Nat.le_log2 h0).2 hf
      omega

theorem round_self (x : Magnitude) {b : Nat} (hb : 0 < b) {a : Nat}
    (h : a * Nat.pow 2 1074 = x.numerator * b) : round a b = some x := by
  have hscale : excess (a * Nat.pow 2 1074) b = x.scale := by
    rw [excess, h, Nat.mul_div_cancel _ hb, excess_numerator]
  have hmantissa : divideToEven (a * Nat.pow 2 1074) (b * Nat.pow 2 x.scale) = x.mantissa := by
    have hassoc : a * Nat.pow 2 1074 = x.mantissa * (b * Nat.pow 2 x.scale) := by
      rw [h, numerator]
      ac_rfl
    rw [hassoc]
    exact divideToEven_mul _ (Nat.mul_pos hb (Nat.two_pow_pos _))
  obtain ⟨m, k, hm, hk, hf⟩ := x
  simp only [round, hscale, hmantissa, ofParts?]
  rw [if_neg (by omega), dif_pos ⟨hm, hk, hf⟩]

end Magnitude
end JsonnetPreview
