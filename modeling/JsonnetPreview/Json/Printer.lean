import JsonnetPreview.Json.Basic

namespace JsonnetPreview.Json

/-- Whether each item has a line of its own, and whether all characters beyond ASCII are escaped. -/
structure Style where
  lines : Bool
  ascii : Bool
  deriving DecidableEq, Repr

def hexDigit (n : Nat) : CodePoint := .char (Nat.digitChar n)

def escape16 (n : Nat) : Text :=
  [.char '\\', .char 'u', hexDigit (n / 0x1000 % 16), hexDigit (n / 0x100 % 16),
    hexDigit (n / 0x10 % 16), hexDigit (n % 16)]

def escapeUnicode (n : Nat) : Text :=
  if n < 0x10000 then escape16 n
  else escape16 (0xD800 + (n - 0x10000) / 0x400) ++ escape16 (0xDC00 + (n - 0x10000) % 0x400)

def writeElement (ascii : Bool) : CodePoint → Text
  | .char '"' => "\\\""
  | .char '\\' => "\\\\"
  | .char '\n' => "\\n"
  | .char '\r' => "\\r"
  | .char '\t' => "\\t"
  | .char '\x08' => "\\b"
  | .char '\x0c' => "\\f"
  | c =>
    if c.value < 0x20 || (ascii && 0x7F ≤ c.value) then escapeUnicode c.value else [c]

def writeString (ascii : Bool) (t : Text) : Text :=
  .char '"' :: (t.flatMap (writeElement ascii) ++ [.char '"'])

namespace Style

def lead (s : Style) (depth : Nat) : Text :=
  if s.lines then .char '\n' :: Text.replicate (2 * depth) ' ' else []

def colon (s : Style) : Text := if s.lines then ": " else ":"

end Style

mutual

/-- A value in front of a text. What is in the value stands one deeper than `depth`. -/
def writeBefore (s : Style) (depth : Nat) (tail : Text) : Json → Text
  | null => "null" ++ tail
  | bool b => (if b then "true" else "false") ++ tail
  | int n => Text.ofInt n ++ tail
  | float x => layout.render x ++ tail
  | str t => writeString s.ascii t ++ tail
  | arr [] => "[]" ++ tail
  | arr (v :: r) =>
    .char '[' :: (s.lead (depth + 1) ++ writeBefore s (depth + 1)
      (writeItems s (depth + 1) (s.lead depth ++ .char ']' :: tail) r) v)
  | obj [] => "\x7b\x7d" ++ tail
  | obj ((k, v) :: r) =>
    .char '\x7b' :: (s.lead (depth + 1) ++ writeString s.ascii k ++ s.colon ++
      writeBefore s (depth + 1)
        (writeMembers s (depth + 1) (s.lead depth ++ .char '\x7d' :: tail) r) v)

def writeItems (s : Style) (depth : Nat) (tail : Text) : List Json → Text
  | [] => tail
  | v :: r =>
    .char ',' :: (s.lead depth ++ writeBefore s depth (writeItems s depth tail r) v)

def writeMembers (s : Style) (depth : Nat) (tail : Text) : List (Text × Json) → Text
  | [] => tail
  | (k, v) :: r =>
    .char ',' :: (s.lead depth ++ writeString s.ascii k ++ s.colon ++
      writeBefore s depth (writeMembers s depth tail r) v)

end

def write (s : Style) (v : Json) : Text := v.writeBefore s 0 []

def write? [Stack] (s : Style) (v : Json) : Except NestedTooDeep Text :=
  if Stack.writesJson v then .ok (v.write s) else .error .writingJson

theorem write?_eq_ok_iff [Stack] {s : Style} {v : Json} {t : Text} :
    v.write? s = .ok t ↔ Stack.writesJson v ∧ v.write s = t := by
  rw [write?]
  split <;> simp_all

def pretty (v : Json) : Text := v.write ⟨true, false⟩

def prettyAscii (v : Json) : Text := v.write ⟨true, true⟩

def compact (v : Json) : Text := v.write ⟨false, true⟩

end JsonnetPreview.Json
