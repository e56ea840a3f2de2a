import JsonnetPreview.Text.Basic

namespace JsonnetPreview

def digitZeros : List Nat :=
  [0x30, 0x660, 0x6F0, 0x7C0, 0x966, 0x9E6, 0xA66, 0xAE6, 0xB66, 0xBE6, 0xC66, 0xCE6, 0xD66, 0xDE6,
   0xE50, 0xED0, 0xF20, 0x1040, 0x1090, 0x17E0, 0x1810, 0x1946, 0x19D0, 0x1A80, 0x1A90, 0x1B50,
   0x1BB0, 0x1C40, 0x1C50, 0xA620, 0xA8D0, 0xA900, 0xA9D0, 0xA9F0, 0xAA50, 0xABF0, 0xFF10,
   0x104A0, 0x10D30, 0x11066, 0x110F0, 0x11136, 0x111D0, 0x112F0, 0x11450, 0x114D0, 0x11650,
   0x116C0, 0x11730, 0x118E0, 0x11950, 0x11C50, 0x11D50, 0x11DA0, 0x16A60, 0x16AC0, 0x16B50,
   0x1D7CE, 0x1D7D8, 0x1D7E2, 0x1D7EC, 0x1D7F6, 0x1E140, 0x1E2F0, 0x1E950, 0x1FBF0]

def CodePoint.digit? (c : CodePoint) : Option Nat :=
  (digitZeros.find? fun z => z ≤ c.value && c.value < z + 10).map (c.value - ·)

theorem CodePoint.digit?_lt {c : CodePoint} {d : Nat} (h : c.digit? = some d) : d < 10 := by
  obtain ⟨z, hz, rfl⟩ := Option.map_eq_some_iff.1 h
  have := List.find?_some hz
  simp only [Bool.and_eq_true, decide_eq_true_eq] at this
  omega

/-- The digits of a numeral, the most significant one first. -/
abbrev Numeral := List Nat

structure NumeralTooLong where
  digits : Nat
  deriving DecidableEq, Repr

namespace Numeral

/-- The most digits, leading zeros counted, that are read as one number. -/
def digitLimit : Nat := 4300

def scan : Text → Numeral × Text
  | [] => ([], [])
  | c :: r =>
    match c.digit? with
    | some d => (d :: (scan r).1, (scan r).2)
    | none => ([], c :: r)

def value (n : Numeral) : Nat := n.foldl (fun v d => 10 * v + d) 0

def value? (n : Numeral) : Except NumeralTooLong Nat :=
  if digitLimit < n.length then .error ⟨n.length⟩ else .ok n.value

theorem value_append_singleton (n : Numeral) (d : Nat) : value (n ++ [d]) = 10 * value n + d := by
  simp [value]

end Numeral

def NumeralTooLong.message (e : NumeralTooLong) : Text :=
  "Exceeds the limit (4300 digits) for integer string conversion: value has " ++
    (Text.ofNat e.digits ++
      " digits; use sys.set_int_max_str_digits() to increase the limit")

end JsonnetPreview
