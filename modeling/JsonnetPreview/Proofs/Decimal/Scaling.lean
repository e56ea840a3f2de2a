import JsonnetPreview.Decimal.Shortest
import Mathlib.Algebra.Group.Nat.Defs
import Mathlib.Data.Nat.Log

namespace JsonnetPreview.Magnitude

theorem excess_mul_right (a b : Nat) {k : Nat} (hk : 0 < k) :
    excess (a * k) (b * k) = excess a b := by
  rw [excess, excess, Nat.mul_div_mul_right a b hk]

theorem divideToEven_mul_right (a b : Nat) {k : Nat} (hk : 0 < k) :
    divideToEven (a * k) (b * k) = divideToEven a b := by
  have hr : 2 * (a % b * k) = 2 * (a % b) * k := (Nat.mul_assoc ..).symm
  have hlt : b * k < 2 * (a % b) * k ↔ b < 2 * (a % b) := Nat.mul_lt_mul_right hk
  have heq : (2 * (a % b) * k == b * k) = (2 * (a % b) == b) := by
    rw [Bool.eq_iff_iff, beq_iff_eq, beq_iff_eq, Nat.mul_left_inj (Nat.ne_of_gt hk)]
  simp only [divideToEven, Nat.mul_div_mul_right a b hk, Nat.mul_mod_mul_right, hr, hlt, heq]

theorem round_mul_right (a b : Nat) {k : Nat} (hk : 0 < k) : round (a * k) (b * k) = round a b := by
  simp only [round, Nat.mul_right_comm _ k, excess_mul_right _ _ hk, divideToEven_mul_right _ _ hk]

/-- Two fractions of one value are rounded to one magnitude. -/
theorem round_congr {a b a' b' : Nat} (hb : 0 < b) (hb' : 0 < b') (h : a * b' = a' * b) :
    round a b = round a' b' := by
  rw [← round_mul_right a b hb', h, Nat.mul_comm b, round_mul_right a' b' hb]

theorem ofDecimal_eq_round {c : Nat} {e : Int} (hc : c ≠ 0) (hlarge : e ≤ 400)
    (hsmall : -1100 ≤ e + c.log2 + 1) :
    ofDecimal ⟨c, e⟩ = round (c * 10 ^ e.toNat) (10 ^ (-e).toNat) := by
  rw [ofDecimal, if_neg hc, if_neg (by simpa using hlarge), if_neg (by simpa using hsmall)]
  cases e with
  | ofNat n => simp
  | negSucc n => simp [Int.neg_negSucc]

theorem exponent_of_ofDecimal {c : Nat} {e : Int} {x : Magnitude} (hc : c ≠ 0)
    (h : ofDecimal ⟨c, e⟩ = some x) (hx : x ≠ zero) : e ≤ 400 ∧ -1100 ≤ e + c.log2 + 1 := by
  rw [ofDecimal, if_neg hc] at h
  split at h
  next => cases h
  next hlarge =>
    split at h
    next =>
      cases h
      exact absurd rfl hx
    next hsmall => exact ⟨Int.not_lt.1 hlarge, Int.not_lt.1 hsmall⟩

theorem log2_mul_ten_pow {c : Nat} (hc : c ≠ 0) (k : Nat) : c.log2 + k ≤ (c * 10 ^ k).log2 := by
  have hne : c * 10 ^ k ≠ 0 := Nat.mul_ne_zero hc (Nat.ne_of_gt (Nat.pow_pos (by decide)))
  rw [Nat.le_log2 hne, Nat.pow_add]
  exact Nat.mul_le_mul (Nat.log2_self_le hc) (Nat.pow_le_pow_left (by decide) k)

theorem ofDecimal_scale {c : Nat} {e : Int} {x : Magnitude} (h : ofDecimal ⟨c, e⟩ = some x)
    (hx : x ≠ zero) (k : Nat) : ofDecimal ⟨c * 10 ^ k, e - k⟩ = some x := by
  have hc : c ≠ 0 := by
    rintro rfl
    cases h
    exact hx rfl
  obtain ⟨hlarge, hsmall⟩ := exponent_of_ofDecimal hc h hx
  have hpos (n : Nat) : 0 < 10 ^ n := Nat.pow_pos (by decide)
  have hlog := log2_mul_ten_pow hc k
  rw [ofDecimal_eq_round (Nat.mul_ne_zero hc (hpos k).ne') (by omega) (by omega)]
  rw [ofDecimal_eq_round hc hlarge hsmall] at h
  rw [← h]
  refine round_congr (hpos _) (hpos _) ?_
  have hexp : k + (e - k).toNat + (-e).toNat = e.toNat + (-(e - k)).toNat := by omega
  calc c * 10 ^ k * 10 ^ (e - k).toNat * 10 ^ (-e).toNat
      = c * 10 ^ (k + (e - k).toNat + (-e).toNat) := by
        rw [Nat.pow_add, Nat.pow_add, Nat.mul_assoc, Nat.mul_assoc, Nat.mul_assoc]
    _ = c * 10 ^ e.toNat * 10 ^ (-(e - k)).toNat := by
        rw [hexp, Nat.pow_add, Nat.mul_assoc]

end JsonnetPreview.Magnitude
