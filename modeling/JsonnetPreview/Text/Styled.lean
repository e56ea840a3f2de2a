import JsonnetPreview.Text.Blank

namespace JsonnetPreview

inductive Style where
  | red
  | dim
  | bold
  | boldRed
  | boldGreen
  | boldYellow
  | dimItalic
  | boldRedUnderline
  deriving DecidableEq, Repr

def Style.name : Style → Text
  | red => "red"
  | dim => "dim"
  | bold => "bold"
  | boldRed => "bold red"
  | boldGreen => "bold green"
  | boldYellow => "bold yellow"
  | dimItalic => "dim italic"
  | boldRedUnderline => "bold red underline"

structure Span where
  start : Int
  stop : Int
  style : Style
  deriving DecidableEq, Repr

structure Styled where
  plain : Text
  spans : List Span := []
  base : Option Style := none
  deriving DecidableEq, Repr

/-- Bell, backspace, vertical tab, form feed and carriage return, which would move the cursor. -/
def CodePoint.movesCursor (c : CodePoint) : Bool :=
  c.value == 7 || c.value == 8 || c.value == 11 || c.value == 12 || c.value == 13

def Span.shift (s : Span) (n : Int) : Span := { s with start := s.start + n, stop := s.stop + n }

namespace Styled

def showable (t : Text) : Text := t.filter (!·.movesCursor)

def ofText (t : Text) (base : Option Style) : Styled := { plain := showable t, base }

def empty : Styled := { plain := [] }

def append (s : Styled) (t : Text) (style : Option Style) : Styled :=
  if t.isEmpty then s
  else
    let shown := showable t
    let span : List Span :=
      match style with
      | none => []
      | some style => [⟨s.plain.length, s.plain.length + shown.length, style⟩]
    { s with plain := s.plain ++ shown, spans := s.spans ++ span }

/-- Give a style to a part. Negative offsets count from the end, and a part that is empty or begins
behind the end gets none. -/
def stylize (s : Styled) (style : Style) (start stop : Int) : Styled :=
  let length : Int := s.plain.length
  let start := if start < 0 then length + start else start
  let stop := if stop < 0 then length + stop else stop
  if length ≤ start || stop ≤ start then s
  else { s with spans := s.spans ++ [⟨start, min length stop, style⟩] }

def spansAt (s : Styled) (n : Int) : List Span :=
  let base : List Span :=
    match s.base with
    | none => []
    | some style => [⟨n, n + s.plain.length, style⟩]
  base ++ s.spans.map (·.shift n)

def appendStyled (s t : Styled) : Styled :=
  { s with plain := s.plain ++ t.plain, spans := s.spans ++ t.spansAt s.plain.length }

def concatAt (n : Int) : List Styled → Styled
  | [] => empty
  | s :: rest =>
    let t := concatAt (n + s.plain.length) rest
    { plain := s.plain ++ t.plain, spans := s.spansAt n ++ t.spans }

def concat (parts : List Styled) : Styled := concatAt 0 parts

/-- The text without white space at its end. Spans end there at the latest, and those that begin
there are dropped. -/
def trimEnd (s : Styled) : Styled :=
  let plain := Text.trimEnd s.plain
  let length : Int := plain.length
  if plain.length = s.plain.length then s
  else
    { s with
      plain
      spans := (s.spans.filter (·.start < length)).map fun span =>
        { span with stop := min length span.stop } }

end Styled
end JsonnetPreview
