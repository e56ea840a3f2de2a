import JsonnetPreview.Json.Reader
import JsonnetPreview.Proofs.Text.Utf8
import JsonnetPreview.Yaml.Scalar
import Mathlib.Algebra.Group.Nat.Defs

namespace JsonnetPreview.Yaml

def hexValueFrom (v : Nat) (t : Text) : Nat :=
  t.foldl (fun v c => v * 16 + (Json.hexDigit? c).getD 0) v

def hexValue (t : Text) : Nat := hexValueFrom 0 t

def letters : List (Char × Nat) :=
  [('0', 0x00), ('a', 0x07), ('b', 0x08), ('t', 0x09), ('n', 0x0A), ('v', 0x0B), ('f', 0x0C),
   ('r', 0x0D), ('e', 0x1B), ('"', 0x22), ('\\', 0x5C), ('N', 0x85), ('L', 0x2028), ('P', 0x2029)]

def widths : List (Char × Nat) := [('x', 2), ('u', 4), ('U', 8)]

/-- What an escape stands for, from behind its backslash on, and what follows it. -/
def unescape : Text → CodePoint × Text
  | .char c :: r =>
    match widths.lookup c with
    | some width => (.ofValue (hexValue (r.take width)), r.drop width)
    | none => (.ofValue ((letters.lookup c).getD 0), r)
  | t => (.char '\\', t)

theorem hexDigit?_digitChar {d : Nat} (h : d < 16) :
    Json.hexDigit? (.char (Nat.digitChar d).toUpper) = some d := by
  have hall : ∀ d < 16, Json.hexDigit? (.char (Nat.digitChar d).toUpper) = some d := by decide
  exact hall d h

theorem hexDigits_succ (width n : Nat) : hexDigits (width + 1) n =
    .char (Nat.digitChar (n / 16 ^ width % 16)).toUpper :: hexDigits width n := by
  simp [hexDigits, List.range_succ]

theorem length_hexDigits (width n : Nat) : (hexDigits width n).length = width := by
  simp [hexDigits]

theorem hexValueFrom_hexDigits (v width n : Nat) :
    hexValueFrom v (hexDigits width n) = v * 16 ^ width + n % 16 ^ width := by
  induction width generalizing v with
  | zero => simp [hexDigits, hexValueFrom, Nat.mod_one]
  | succ width ih =>
      have hdigit := hexDigit?_digitChar (Nat.mod_lt (n / 16 ^ width) (by decide : 0 < 16))
      have hmod : n % 16 ^ (width + 1) = n / 16 ^ width % 16 * 16 ^ width + n % 16 ^ width := by
        rw [Nat.pow_succ, Nat.mod_mul, Nat.add_comm, Nat.mul_comm]
      rw [hexDigits_succ, hexValueFrom, List.foldl_cons, hdigit, ← hexValueFrom, ih, hmod,
        Option.getD_some, Nat.add_mul, Nat.mul_assoc, Nat.mul_comm 16, Nat.pow_succ, Nat.add_assoc]

/-- A backslash and something that is no blank and ends no line, which are read back. -/
structure IsEscape (c : CodePoint) (e : Text) : Prop where
  reads : ∃ d r, e = .char '\\' :: .char d :: r ∧ d ≠ '\n' ∧ d ≠ ' ' ∧ (d = '\\' → r = []) ∧
    ∀ w, unescape (.char d :: (r ++ w)) = (c, w)

variable {c : CodePoint} {d : Char}

theorem isEscape_letter (h : (d, c.value) ∈ letters) : IsEscape c [.char '\\', .char d] := by
  have hall : ∀ x ∈ letters, x.1 ≠ '\n' ∧ x.1 ≠ ' ' ∧ widths.lookup x.1 = none ∧
      letters.lookup x.1 = some x.2 := by decide
  obtain ⟨hline, hblank, hwidth, hletter⟩ := hall _ h
  refine ⟨d, [], rfl, hline, hblank, fun _ => rfl, fun w => ?_⟩
  rw [unescape, hwidth, hletter, Option.getD_some, c.ofValue_value]
  rfl

theorem isEscape_digits {width : Nat} (h : (d, width) ∈ widths) (hc : c.value < 16 ^ width) :
    IsEscape c (.char '\\' :: .char d :: hexDigits width c.value) := by
  have hall : ∀ x ∈ widths, x.1 ≠ '\n' ∧ x.1 ≠ ' ' ∧ x.1 ≠ '\\' ∧
      widths.lookup x.1 = some x.2 := by decide
  obtain ⟨hline, hblank, hbackslash, hwidth⟩ := hall _ h
  have hvalue : hexValue (hexDigits width c.value) = c.value := by
    rw [hexValue, hexValueFrom_hexDigits, Nat.zero_mul, Nat.zero_add, Nat.mod_eq_of_lt hc]
  have hlength := length_hexDigits width c.value
  refine ⟨d, _, rfl, hline, hblank, fun h => absurd h hbackslash, fun w => ?_⟩
  simp only [unescape, hwidth, List.take_left' hlength, List.drop_left' hlength, hvalue,
    c.ofValue_value]

theorem isEscape_of_escape? {e : Text} (h : escape? c = some e) : IsEscape c e := by
  rw [escape?] at h
  split at h
  case h_15 =>
    split at h
    next => cases h
    next =>
      split at h
      next hn =>
        cases h
        exact isEscape_digits (by decide) (Nat.lt_succ_of_le hn)
      next =>
        split at h <;> cases h
        next hn => exact isEscape_digits (by decide) (Nat.lt_succ_of_le hn)
        next => exact isEscape_digits (by decide) (c.value_lt.trans (by decide))
  all_goals
    rename_i hvalue
    cases h
    exact isEscape_letter (by rw [hvalue]; decide)

end JsonnetPreview.Yaml
