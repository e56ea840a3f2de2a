import JsonnetPreview.Json.Reader

namespace JsonnetPreview.Json

def Complaint.description : Complaint → Text
  | byteOrderMark => "Unexpected UTF-8 BOM (decode using utf-8-sig)"
  | value => "Expecting value"
  | propertyName => "Expecting property name enclosed in double quotes"
  | colon => "Expecting ':' delimiter"
  | comma => "Expecting ',' delimiter"
  | extraData => "Extra data"
  | unterminatedString => "Unterminated string starting at"
  | controlCharacter => "Invalid control character at"
  | escape => "Invalid \\escape"
  | unicodeEscape => "Invalid \\uXXXX escape"

/-- A complaint with its place: line and column count from one, and only a line feed ends a line. -/
structure Malformed where
  complaint : Complaint
  line : Nat
  column : Nat
  offset : Nat
  deriving DecidableEq, Repr

def Malformed.locate (source : Text) (complaint : Complaint) (offset : Nat) : Malformed :=
  let before := source.take offset
  { complaint
    line := before.count (.char '\n') + 1
    column := (before.reverse.takeWhile (· ≠ .char '\n')).length + 1
    offset }

def Malformed.message (m : Malformed) : Text :=
  m.complaint.description ++ ": line " ++ Text.ofNat m.line ++ " column " ++ Text.ofNat m.column ++
    " (char " ++ Text.ofNat m.offset ++ ")"

/-- Why a text is not read: it is not JSON, it holds an integer with too many digits, or its arrays
and objects are nested too deep. -/
inductive ReadError where
  | malformed (m : Malformed)
  | numeralTooLong (cause : NumeralTooLong)
  | nestedTooDeep (cause : NestedTooDeep)
  deriving DecidableEq, Repr

def read [Stack] (t : Text) : Except ReadError Json :=
  match parse t with
  | .ok v => .ok v
  | .error (.malformed complaint offset) => .error (.malformed (.locate t complaint offset))
  | .error (.numeralTooLong cause) => .error (.numeralTooLong cause)
  | .error (.nestedTooDeep cause) => .error (.nestedTooDeep cause)

def ReadError.message : ReadError → Text
  | malformed m => m.message
  | numeralTooLong cause => cause.message
  | nestedTooDeep cause => cause.message

end JsonnetPreview.Json
