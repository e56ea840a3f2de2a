import JsonnetPreview.Decimal.Binary64
import JsonnetPreview.Text.Basic

namespace JsonnetPreview

namespace Binary64

def ofMagnitude? (negative : Bool) : Option Magnitude → Binary64
  | some x => .finite negative x
  | none => .infinite negative

/-- The number nearest to `n / 2 ^ 1074`. -/
def ofScaled (n : Int) : Binary64 :=
  ofMagnitude? (n < 0) (Magnitude.round n.natAbs (Nat.pow 2 1074))

def ofInt (n : Int) : Binary64 := ofMagnitude? (n < 0) (Magnitude.round n.natAbs 1)

def zero : Binary64 := .finite false .zero

def scaled (negative : Bool) (x : Magnitude) : Int :=
  if negative then -(x.numerator : Int) else x.numerator

def sub : Binary64 → Binary64 → Binary64
  | .finite s x, .finite t y => ofScaled (scaled s x - scaled t y)
  | .infinite s, .infinite t => if s = t then .nan else .infinite s
  | .infinite s, .finite _ _ => .infinite s
  | .finite _ _, .infinite t => .infinite !t
  | _, _ => .nan

def le : Binary64 → Binary64 → Bool
  | .finite s x, .finite t y => scaled s x ≤ scaled t y
  | .infinite s, .infinite t => s || !t
  | .infinite s, .finite _ _ => s
  | .finite _ _, .infinite t => !t
  | _, _ => false

end Binary64

inductive Number where
  | int (n : Int)
  | float (x : Binary64)
  deriving DecidableEq

namespace Number

structure TooLarge where
  deriving DecidableEq, Repr

def TooLarge.message (_ : TooLarge) : Text := "int too large to convert to float"

def toBinary64 : Number → Except TooLarge Binary64
  | .float x => .ok x
  | .int n =>
    match Binary64.ofInt n with
    | .infinite _ => .error ⟨⟩
    | x => .ok x

def sub : Number → Number → Except TooLarge Number
  | .int m, .int n => .ok (.int (m - n))
  | a, b => do return .float ((← a.toBinary64).sub (← b.toBinary64))

/-- The least and the greatest number, those between them by their value times `2 ^ 1074`, and what
is in order with nothing. -/
inductive Rank where
  | lowest
  | between (scaled : Int)
  | highest
  | none

def rank : Number → Rank
  | .int n => .between (n * Nat.pow 2 1074)
  | .float (.finite s x) => .between (Binary64.scaled s x)
  | .float (.infinite s) => if s then .lowest else .highest
  | .float .nan => .none

def Rank.le : Rank → Rank → Bool
  | .none, _ | _, .none => false
  | .lowest, _ | _, .highest => true
  | .between m, .between n => m ≤ n
  | _, _ => false

def le (a b : Number) : Bool := a.rank.le b.rank

end Number
end JsonnetPreview
