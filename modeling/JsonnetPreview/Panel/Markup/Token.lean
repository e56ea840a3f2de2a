import JsonnetPreview.Text.Alphanumeric
import JsonnetPreview.Text.Blank
import JsonnetPreview.Text.Lines
import JsonnetPreview.Text.Pattern
import JsonnetPreview.Text.Quoted

namespace JsonnetPreview.Markup

def isLetter (c : CodePoint) : Bool :=
  match c with
  | .char c => c.isAlpha || c == '_' || c == '-'
  | .surrogate _ => false

def isLetterOrDigit (c : CodePoint) : Bool :=
  match c with
  | .char c => c.isAlphanum || c == '_' || c == '-'
  | .surrogate _ => false

def isHexDigit (c : CodePoint) : Bool :=
  match c with
  | .char c => c.isDigit || ('a' ≤ c && c ≤ 'f') || ('A' ≤ c && c ≤ 'F')
  | .surrogate _ => false

def run? (p : CodePoint → Bool) (t : Text) : Option Nat :=
  match (t.takeWhile p).length with
  | 0 => none
  | n => some n

def key? : Text → Option Nat
  | [] => none
  | c :: r =>
    if isLetter c || c = .char '@' then
      let name := r.takeWhile isLetterOrDigit
      if r[name.length]? = some (.char '=') then some (name.length + 2) else none
    else none

def decimal : Pattern :=
  .sequence [.opt (.char '-'), .many1 .anyDigit, .opt (.char '.'), .many .anyDigit]

def percentage : Pattern := .sequence [decimal, .char '%']

def blanks : Pattern := .many (.element fun c => (CodePoint.char c).isBlank)

def call (word : String) (arguments : List Pattern) : Pattern :=
  .sequence [.word word, .char '(', blanks,
    .sequence (arguments.intersperse (.sequence [blanks, .char ',', blanks])), blanks, .char ')']

def colorCall : Pattern :=
  .choice
    [call "rgb" [decimal, decimal, decimal],
     call "rgba" [decimal, decimal, decimal, decimal],
     call "hsl" [decimal, percentage, percentage],
     call "hsla" [decimal, percentage, percentage, decimal]]

/-- The length of the text up to its first element of a kind, that included, if the text up to there
matches. -/
def upTo? (c : Char) (p : Pattern) (t : Text) : Option Nat :=
  let n := (t.takeWhile (· ≠ .char c)).length + 1
  if p.isMatch (t.take n) then some n else none

def hexColor? : Text → Option Nat
  | .char '#' :: r =>
    ([8, 6, 4, 3].find? (· ≤ (r.takeWhile isHexDigit).length)).map (· + 1)
  | _ => none

def reference? : Text → Option Nat
  | .char '$' :: r => (run? isLetterOrDigit r).map (· + 1)
  | _ => none

/-- The length of what may stand in a tag without a meaning of its own. -/
def part? (t : Text) : Option Nat :=
  [upTo? '%' percentage, hexColor?, upTo? ')' colorCall, run? isLetter, reference?,
    run? CodePoint.isBlank].findSome? (· t)

inductive TagToken where
  | close
  | key
  | part
  | text
  deriving DecidableEq, Repr

/-- The first token in a tag, and its length. Behind a backslash no bracket closes a tag. -/
def tagToken (escaped : Bool) (t : Text) : TagToken × Nat :=
  if t.head? = some (.char ']') && !escaped then (.close, 1)
  else
    match key? t with
    | some n => (.key, n)
    | none =>
      match part? t with
      | some n => (.part, n)
      | none => (.text, 1)

inductive ValueToken where
  | opening
  | closing
  | part
  deriving DecidableEq, Repr

def string? : Text → Option Nat
  | [] => none
  | q :: r =>
    let body := r.takeWhile fun c => c ≠ q && c ≠ .char '\n'
    if (q = .char '"' || q = .char '\'') && r[body.length]? = some q then some (body.length + 2)
    else none

def valueToken? (t : Text) : Option (ValueToken × Nat) :=
  match t with
  | .char '(' :: _ | .char '[' :: _ | .char '\x7b' :: _ => some (.opening, 1)
  | .char ')' :: _ | .char ']' :: _ | .char '\x7d' :: _ => some (.closing, 1)
  | .char ',' :: _ => some (.part, 1)
  | t =>
    ([run? fun c => c.isWordElement || c = .char '.', run? CodePoint.isBlank, string?].findSome?
      (· t)).map (.part, ·)

def styleWords : List (List Text) :=
  [["bold", "b"], ["dim", "d"], ["italic", "i"], ["underline", "u"], ["underline2", "uu"],
   ["reverse", "r"], ["strike", "s"], ["blink"]]

/-- The styles that words switch on or off, the last one first. The word `not` is about the style
behind it. -/
def stylesOf (on : Bool) (found : List (Nat × Bool)) : List Text → Option (List (Nat × Bool))
  | [] => some found
  | word :: rest =>
    if word = "not" then stylesOf false found rest
    else if word = "on" then stylesOf on found rest
    else
      match styleWords.findIdx? (·.contains word) with
      | some style => stylesOf true ((style, on) :: found) rest
      | none => none

def nameOfStyles (found : List (Nat × Bool)) : Text :=
  let written (style : Nat) (words : List Text) : Option Text :=
    (found.lookup style).map fun on => (if on then ([] : Text) else "not ") ++ words.headD []
  Text.joinWith " " ((styleWords.mapIdx written).filterMap id)

def tagName (body : Text) : Text :=
  match stylesOf true [] (Text.words body) with
  | some found => nameOfStyles found
  | none => body

end JsonnetPreview.Markup
