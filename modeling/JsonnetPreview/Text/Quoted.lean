import JsonnetPreview.Text.Basic
import JsonnetPreview.Text.Shape

namespace JsonnetPreview.Text

def lowerHex (width n : Nat) : Text :=
  (List.range width).reverse.map fun i => .char (Nat.digitChar (n / Nat.pow 16 i % 16))

/-- Single quotes, unless the text has some of them and no double ones. -/
def quoteMark (t : Text) : Char :=
  if t.contains (.char '\'') && !t.contains (.char '"') then '"' else '\''

def escaped (c : CodePoint) : Text :=
  let n := c.value
  if n ≤ 0xFF then "\\x" ++ lowerHex 2 n
  else if n ≤ 0xFFFF then "\\u" ++ lowerHex 4 n
  else "\\U" ++ lowerHex 8 n

def quotedElement (q : Char) (c : CodePoint) : Text :=
  if c = .char q || c = .char '\\' then [.char '\\', c]
  else if c = .char '\n' then "\\n"
  else if c = .char '\r' then "\\r"
  else if c = .char '\t' then "\\t"
  else if c.hasShape then [c]
  else escaped c

def quoted (t : Text) : Text :=
  let q := quoteMark t
  .char q :: (t.flatMap (quotedElement q) ++ [.char q])

def isShellSafe : CodePoint → Bool
  | .char c => c.isAlphanum || "_@%+=:,./-".toList.contains c
  | .surrogate _ => false

/-- A word that needs it stands in single quotes, and a single quote in double ones. -/
def shellWord (t : Text) : Text :=
  if !t.isEmpty && t.all isShellSafe then t
  else
    let body := t.flatMap fun c => if c = .char '\'' then ofString "'\"'\"'" else [c]
    .char '\'' :: (body ++ [.char '\''])

def commandLine (words : List Text) : Text := joinWith " " (words.map shellWord)

end JsonnetPreview.Text
