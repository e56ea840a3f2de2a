import JsonnetPreview.Json.Basic
import JsonnetPreview.Text.Quoted

namespace JsonnetPreview.Json

def messageLayout : Layout where
  infinity := "inf"
  nan := "nan"
  pointBeforeExponent := false

mutual

def inspect : Json → Text
  | null => "None"
  | bool b => if b then "True" else "False"
  | int n => Text.ofInt n
  | float x => messageLayout.render x
  | str t => Text.quoted t
  | arr items => .char '[' :: (inspectItems [] items ++ [.char ']'])
  | obj members => .char '\x7b' :: (inspectMembers [] members ++ [.char '\x7d'])

def inspectItems (lead : Text) : List Json → Text
  | [] => []
  | v :: r => lead ++ inspect v ++ inspectItems ", " r

def inspectMembers (lead : Text) : List (Text × Json) → Text
  | [] => []
  | (k, v) :: r => lead ++ Text.quoted k ++ ": " ++ inspect v ++ inspectMembers ", " r

end

def display : Json → Text
  | str t => t
  | v => v.inspect

def isGiven : Json → Bool
  | null => false
  | bool b => b
  | int n => n ≠ 0
  | float (.finite _ x) => x.mantissa ≠ 0
  | float _ => true
  | str t => !t.isEmpty
  | arr items => !items.isEmpty
  | obj members => !members.isEmpty

def kindName : Json → Text
  | null => "NoneType"
  | bool _ => "bool"
  | int _ => "int"
  | float _ => "float"
  | str _ => "str"
  | arr _ => "list"
  | obj _ => "dict"

/-- The elements of a value that has some: the characters of a string, the items of an array, the
names in an object. -/
def elements? : Json → Option (List Json)
  | str t => some (t.map fun c => .str [c])
  | arr items => some items
  | obj members => some (members.map fun (k, _) => .str k)
  | _ => none

def scaledNumber? : Json → Option Int
  | bool b => some (if b then Nat.pow 2 1074 else 0)
  | int n => some (n * Nat.pow 2 1074)
  | float (.finite negative x) => some (if negative then -(x.numerator : Int) else x.numerator)
  | _ => none

/-- Whether two scalars are the same key: numbers and truth values by their number. -/
def sameKey (a b : Json) : Bool :=
  match a, b with
  | str s, str t => s = t
  | null, null => true
  | float .nan, float .nan => true
  | float (.infinite s), float (.infinite t) => s == t
  | a, b =>
    match a.scaledNumber?, b.scaledNumber? with
    | some m, some n => m == n
    | _, _ => false

end JsonnetPreview.Json
