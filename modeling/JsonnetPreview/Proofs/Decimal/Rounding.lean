import JsonnetPreview.Decimal.Number
import JsonnetPreview.Proofs.Decimal.Scaling

namespace JsonnetPreview

namespace Magnitude

theorem two_pow_pos (k : Nat) : 0 < Nat.pow 2 k := Nat.two_pow_pos k

theorem unit_pos : 0 < Nat.pow 2 1074 := by apply two_pow_pos

theorem exists_numerator_eq {m k : Nat} (hm : m < 2 ^ 53) (hk : k ≤ 2045) :
    ∃ z : Magnitude, z.numerator = m * 2 ^ k := by
  induction k generalizing m with
  | zero => exact ⟨⟨m, 0, hm, hk, .inl rfl⟩, rfl⟩
  | succ k ih =>
      by_cases hfull : 2 ^ 52 ≤ m
      · exact ⟨⟨m, k + 1, hm, hk, .inr hfull⟩, rfl⟩
      · obtain ⟨z, hz⟩ := ih (m := m * 2) (by omega) (by omega)
        exact ⟨z, by rw [hz, Nat.pow_succ']; ac_rfl⟩

theorem numerator_lt (x : Magnitude) : x.numerator < 2 ^ 53 * 2 ^ x.scale :=
  Nat.mul_lt_mul_of_pos_right x.mantissa_lt (Nat.two_pow_pos _)

theorem scale_le_scale {x y : Magnitude} (h : y.numerator ≤ x.numerator) : y.scale ≤ x.scale := by
  by_contra hlt
  have hfull : 2 ^ 52 ≤ y.mantissa := y.full.resolve_left (by omega)
  have hscale : 2 ^ (x.scale + 1) ≤ 2 ^ y.scale := Nat.pow_le_pow_right (by decide) (by omega)
  have hge : 2 ^ 52 * 2 ^ (x.scale + 1) ≤ y.numerator := Nat.mul_le_mul hfull hscale
  have hlt := x.numerator_lt
  rw [Nat.pow_succ] at hge
  omega

/-- The difference of two values that are not far apart is a value. -/
theorem exists_numerator_sub {x y : Magnitude} (hyx : y.numerator ≤ x.numerator)
    (hxy : x.numerator ≤ 2 * y.numerator) :
    ∃ z : Magnitude, z.numerator = x.numerator - y.numerator := by
  obtain ⟨j, hj⟩ := Nat.exists_eq_add_of_le (scale_le_scale hyx)
  have hpos : 0 < 2 ^ y.scale := Nat.two_pow_pos _
  have hx : x.numerator = x.mantissa * 2 ^ j * 2 ^ y.scale := by
    rw [numerator, hj, Nat.pow_eq, Nat.pow_add]
    ac_rfl
  have hy : y.numerator = y.mantissa * 2 ^ y.scale := rfl
  have htwice : x.mantissa * 2 ^ j ≤ 2 * y.mantissa := by
    refine Nat.le_of_mul_le_mul_right ?_ hpos
    rw [← hx, Nat.mul_assoc, ← hy]
    exact hxy
  have hmantissa : x.mantissa * 2 ^ j - y.mantissa < 2 ^ 53 := by
    have hlt : y.mantissa < 2 ^ 53 := y.mantissa_lt
    omega
  obtain ⟨z, hz⟩ := exists_numerator_eq hmantissa y.scale_le
  exact ⟨z, by rw [hz, Nat.sub_mul, ← hx, ← hy]⟩

theorem excess_mul (n : Nat) {b : Nat} (hb : 0 < b) : excess (n * b) b = n.log2 - 52 := by
  rw [excess, Nat.mul_div_cancel n hb]

theorem divideToEven_mul_left (a b : Nat) {k : Nat} (hk : 0 < k) :
    divideToEven (a * k) (k * b) = divideToEven a b := by
  rw [Nat.mul_comm k, divideToEven_mul_right a b hk]

theorem round_units (n : Nat) :
    round n (Nat.pow 2 1074) =
      ofParts? (divideToEven n (2 ^ (n.log2 - 52))) (n.log2 - 52) := by
  rw [round, excess_mul n unit_pos, divideToEven_mul_left n (Nat.pow 2 (n.log2 - 52)) unit_pos]
  rfl

theorem numerator_of_ofParts? {m k : Nat} {y : Magnitude} (h : ofParts? m k = some y) :
    y.numerator = m * 2 ^ k := by
  rw [ofParts?] at h
  split at h
  next hm =>
    split at h
    · cases h
      rw [hm]
      show 2 ^ 52 * 2 ^ (k + 1) = 2 ^ 53 * 2 ^ k
      rw [Nat.pow_succ]
      omega
    · cases h
  next =>
    split at h
    · cases h
      rfl
    · cases h

theorem le_divideToEven (a b : Nat) : a / b ≤ divideToEven a b := by
  simp only [divideToEven]
  split
  · exact Nat.le_succ _
  · exact Nat.le_refl _

theorem numerator_le_floor {x : Magnitude} {n : Nat} (h : x.numerator ≤ n) :
    x.numerator ≤ n / 2 ^ (n.log2 - 52) * 2 ^ (n.log2 - 52) := by
  generalize hs : n.log2 - 52 = s
  have hpos : 0 < 2 ^ s := Nat.two_pow_pos _
  rcases Nat.lt_or_ge x.scale s with hlt | hge
  · have hn : n ≠ 0 := by
      rintro rfl
      simp at hs
      omega
    have hlog : 2 ^ 52 * 2 ^ s ≤ n := by
      rw [← Nat.pow_add]
      exact (Nat.le_log2 hn).1 (by omega)
    have hfloor : 2 ^ 52 ≤ n / 2 ^ s := (Nat.le_div_iff_mul_le hpos).2 hlog
    have hscale : 2 ^ (x.scale + 1) ≤ 2 ^ s := Nat.pow_le_pow_right (by decide) hlt
    calc x.numerator ≤ 2 ^ 53 * 2 ^ x.scale := x.numerator_lt.le
      _ = 2 ^ 52 * 2 ^ (x.scale + 1) := by rw [Nat.pow_succ]; omega
      _ ≤ n / 2 ^ s * 2 ^ s := Nat.mul_le_mul hfloor hscale
  · obtain ⟨j, hj⟩ := Nat.exists_eq_add_of_le hge
    have hx : x.numerator = x.mantissa * 2 ^ j * 2 ^ s := by
      rw [numerator, hj, Nat.pow_eq, Nat.pow_add]
      ac_rfl
    rw [hx] at h ⊢
    exact Nat.mul_le_mul_right _ ((Nat.le_div_iff_mul_le hpos).2 h)

/-- Nothing is rounded below a value that it reaches. -/
theorem numerator_le_of_round {x y : Magnitude} {n : Nat} (h : x.numerator ≤ n)
    (hy : round n (Nat.pow 2 1074) = some y) : x.numerator ≤ y.numerator := by
  rw [round_units] at hy
  rw [numerator_of_ofParts? hy]
  exact (numerator_le_floor h).trans (Nat.mul_le_mul_right _ (le_divideToEven _ _))

theorem round_numerator (x : Magnitude) : round x.numerator (Nat.pow 2 1074) = some x :=
  round_self x unit_pos rfl

end Magnitude

namespace Number

/-- The exact value in units of `2 ^ -1074`. What is infinite or no number has none. -/
def units? (a : Number) : Option Int :=
  match a.rank with
  | .between n => some n
  | _ => none

def ofMagnitude (x : Magnitude) : Number := .float (.finite false x)

theorem units?_ofMagnitude (x : Magnitude) : (ofMagnitude x).units? = some (x.numerator : Int) := rfl

theorem le_of_units? {a b : Number} {m n : Int} (ha : a.units? = some m) (hb : b.units? = some n) :
    a.le b = decide (m ≤ n) := by
  unfold units? at ha hb
  split at ha
  next ha' =>
    cases ha
    split at hb
    next hb' =>
      cases hb
      rw [le, ha', hb']
      rfl
    next => cases hb
  next => cases ha

theorem not_infinite_le_of_units? {d : Number} {n : Int} (hd : d.units? = some n) :
    ¬ (Number.float (.infinite false)).le d = true := by
  unfold units? at hd
  split at hd
  next hd' =>
    rw [le, hd']
    exact Bool.false_ne_true
  next => cases hd

theorem sub_ofMagnitude (x y : Magnitude) :
    (ofMagnitude x).sub (ofMagnitude y) =
      .ok (.float (Binary64.ofScaled (x.numerator - y.numerator))) := rfl

theorem ofScaled_natCast (n : Nat) :
    Binary64.ofScaled n = Binary64.ofMagnitude? false (Magnitude.round n (Nat.pow 2 1074)) := by
  have hneg : decide ((n : Int) < 0) = false := decide_eq_false (by omega)
  rw [Binary64.ofScaled, hneg, Int.natAbs_natCast]

/-- Whether a difference is within a bound is not changed by rounding, where the bound lies below
the lesser number: a difference that is rounded is greater than that number. -/
theorem sub_le_iff {x y : Magnitude} {d : Number} {n : Int} (hd : d.units? = some n)
    (hy : n < y.numerator) (hyx : y.numerator ≤ x.numerator) :
    ∃ elapsed, (ofMagnitude x).sub (ofMagnitude y) = .ok elapsed ∧
      (elapsed.le d = true ↔ (x.numerator : Int) - y.numerator ≤ n) := by
  have hcast : (x.numerator : Int) - y.numerator = (x.numerator - y.numerator : Nat) := by omega
  refine ⟨_, sub_ofMagnitude x y, ?_⟩
  rw [hcast, ofScaled_natCast]
  by_cases hnear : x.numerator ≤ 2 * y.numerator
  · obtain ⟨z, hz⟩ := Magnitude.exists_numerator_sub hyx hnear
    rw [← hz, Magnitude.round_numerator]
    show (ofMagnitude z).le d = true ↔ _
    rw [le_of_units? (units?_ofMagnitude z) hd, decide_eq_true_iff]
  · have hfar : y.numerator ≤ x.numerator - y.numerator := by omega
    refine iff_of_false ?_ (by omega)
    cases hround : Magnitude.round (x.numerator - y.numerator) (Nat.pow 2 1074) with
    | none => exact not_infinite_le_of_units? hd
    | some z =>
        have hz : y.numerator ≤ z.numerator := Magnitude.numerator_le_of_round hfar hround
        show ¬ (ofMagnitude z).le d = true
        rw [le_of_units? (units?_ofMagnitude z) hd, decide_eq_true_iff]
        omega

end Number

end JsonnetPreview
