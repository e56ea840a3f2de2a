import JsonnetPreview.Decimal.Layout
import JsonnetPreview.Table
import JsonnetPreview.Text.Digit

namespace JsonnetPreview

inductive Json where
  | null
  | bool (b : Bool)
  | int (n : Int)
  | float (x : Binary64)
  | str (t : Text)
  | arr (items : List Json)
  | obj (members : List (Text × Json))
  deriving BEq

namespace Json

/-- A number as it is written: its sign, its digits before and behind the point, and its exponent.
The last digit of each numeral comes first, since that is where a reader adds one. -/
structure NumberText where
  negative : Bool
  whole : Numeral
  fraction : Numeral := []
  exponentNegative : Bool := false
  exponent : Numeral := []
  deriving DecidableEq, Repr

namespace NumberText

def decimal (n : NumberText) : Decimal where
  coefficient := Numeral.value (n.whole.reverse ++ n.fraction.reverse)
  exponent :=
    let e : Int := Numeral.value n.exponent.reverse
    (if n.exponentNegative then -e else e) - n.fraction.length

/-- A number without a fraction and an exponent is an integer. -/
def value? (n : NumberText) : Except NumeralTooLong Json :=
  if n.fraction.isEmpty && n.exponent.isEmpty then do
    let v ← Numeral.value? n.whole.reverse
    return .int (if n.negative then -(v : Int) else v)
  else
    match Magnitude.ofDecimal n.decimal with
    | some x => .ok (.float (.finite n.negative x))
    | none => .ok (.float (.infinite n.negative))

end NumberText

inductive Container where
  | array
  | object
  deriving DecidableEq, Repr

inductive NestedTooDeep where
  | reading (container : Container)
  | writingJson
  | writingYaml
  deriving DecidableEq, Repr

def Container.name : Container → Text
  | array => "array"
  | object => "object"

def NestedTooDeep.message : NestedTooDeep → Text
  | reading container =>
    "maximum recursion depth exceeded while decoding a JSON " ++ container.name ++
      " from a unicode string"
  | writingJson => "maximum recursion depth exceeded while calling a Python object"
  | writingYaml => "maximum recursion depth exceeded in __instancecheck__"

mutual

/-- How many arrays and objects there are at most around a part of a value. -/
def height : Json → Nat
  | arr items => heightOfItems items
  | obj members => heightOfMembers members
  | _ => 0

def heightOfItems : List Json → Nat
  | [] => 0
  | v :: r => max (height v + 1) (heightOfItems r)

def heightOfMembers : List (Text × Json) → Nat
  | [] => 0
  | (_, v) :: r => max (height v + 1) (heightOfMembers r)

end

def layout : Layout where
  infinity := "Infinity"
  nan := "NaN"
  pointBeforeExponent := false

end Json

/-- What there is room for on the interpreter's stack: so many arrays and objects may be open at a
time in a text that is read, and these values can be written. The calls that are under way decide it,
so what holds of a text or a value is stated for every stack. -/
class Stack where
  reading : Nat
  writesJson : Json → Bool
  writesYaml : Json → Bool

-- Nominal limits: about what is left of a thousand calls, three of which YAML takes for each level.

def Json.depthLimit : Nat := 988

def Json.writingLimit : Nat := 990

def Yaml.depthLimit : Nat := 330

/-- A stack of about this size, where nothing is said for every stack. -/
instance : Stack where
  reading := Json.depthLimit
  writesJson v := v.height < Json.writingLimit
  writesYaml v := v.height < Yaml.depthLimit

end JsonnetPreview
