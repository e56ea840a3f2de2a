import JsonnetPreview.CommandLine.Usage
import JsonnetPreview.Text.Pattern

namespace JsonnetPreview.CommandLine

inductive Word where
  | operand (t : Text)
  | separator
  /-- A dash and the letter of an option, with the rest of the word if there is one. -/
  | letter (s : Switch) (rest : Option Text)
  /-- Two dashes and the name of an option, with the value behind an equals sign. -/
  | name (s : Switch) (value : Option Text)
  /-- A word that looks like an option and is none. -/
  | unknown (t : Text)
  deriving DecidableEq, Repr

namespace Word

/-- Negative numbers, whole or with a decimal point; a line end may follow. -/
def negativeNumber : Pattern :=
  .sequence
    [.char '-',
     .choice [.many1 .anyDigit, .sequence [.many .anyDigit, .char '.', .many1 .anyDigit]],
     .opt (.char '\n')]

/-- A word with a dash that spells no option. Negative numbers and words with a blank are
operands. -/
def ofOther (t : Text) : Word :=
  if negativeNumber.isMatch t || t.contains (.char ' ') then operand t else unknown t

/-- A word with two dashes, by what follows these. A name may be cut short as long as it can be told
from the others. -/
def ofBody (t body : Text) : Except UsageError Word :=
  let (written, value) := Text.breakAt (· = .char '=') body
  match Switch.ofName? written with
  | some s => .ok (name s value)
  | none =>
    match Switch.beginningWith written with
    | [] => .ok (ofOther t)
    | [s] => .ok (name s value)
    | several => .error (.ambiguous t several)

def restOf : Text → Option Text
  | [] => none
  | c :: rest => if c = .char '=' then some rest else some (c :: rest)

def ofText (t : Text) : Except UsageError Word :=
  match t with
  | [.char '-', .char '-'] => .ok separator
  | .char '-' :: .char '-' :: body => ofBody t body
  | .char '-' :: c :: rest =>
    match Switch.ofLetter? c with
    | some s => .ok (letter s (restOf rest))
    | none => .ok (ofOther t)
  | t => .ok (operand t)

def ofTexts : List Text → Except UsageError (List Word)
  | [] => .ok []
  | t :: rest =>
    match ofText t with
    | .error e => .error e
    | .ok separator => .ok (separator :: rest.map operand)
    | .ok w => (ofTexts rest).map (w :: ·)

end Word
end JsonnetPreview.CommandLine
