import JsonnetPreview.Text.Alphanumeric

namespace JsonnetPreview

structure LineEdit where
  text : Text := []
  anchor : Nat := 0
  cursor : Nat := 0
  deriving DecidableEq, Repr

namespace LineEdit

inductive Motion where
  | left
  | right
  | lineStart
  | lineEnd
  | wordLeft
  | wordRight
  deriving DecidableEq, Repr

def selectAll (text : Text) : LineEdit := { text, anchor := 0, cursor := text.length }

def withText (e : LineEdit) (text : Text) : LineEdit :=
  { text, anchor := min e.anchor text.length, cursor := min e.cursor text.length }

def first (e : LineEdit) : Nat := min e.anchor e.cursor

def last (e : LineEdit) : Nat := max e.anchor e.cursor

def hasSelection (e : LineEdit) : Bool := e.anchor ≠ e.cursor

def selected (e : LineEdit) : Text := (e.text.take e.last).drop e.first

def replace (e : LineEdit) (first last : Nat) (t : Text) : LineEdit :=
  let cursor := first + t.length
  { text := e.text.take first ++ t ++ e.text.drop last, anchor := cursor, cursor }

def insert (e : LineEdit) (t : Text) : LineEdit := e.replace e.first e.last t

def wordStarts (n : Nat) : Text → List Nat
  | c :: d :: r =>
    let rest := wordStarts (n + 1) (d :: r)
    if !c.isWordElement && d.isWordElement then (n + 1) :: rest else rest
  | _ => []

def target (e : LineEdit) : Motion → Nat
  | .left => e.cursor - 1
  | .right => min (e.cursor + 1) e.text.length
  | .lineStart => 0
  | .lineEnd => e.text.length
  | .wordLeft => (wordStarts 0 (e.text.take e.cursor)).getLast?.getD 0
  | .wordRight => (wordStarts e.cursor (e.text.drop e.cursor)).head?.getD e.text.length

/-- A step to one side leaves a selection at its end on that side. -/
def move (e : LineEdit) (m : Motion) : LineEdit :=
  let cursor :=
    match m, e.hasSelection with
    | .left, true => e.first
    | .right, true => e.last
    | m, _ => e.target m
  { e with anchor := cursor, cursor }

/-- Move the cursor and select what it passes. To either end of the line that is a new selection,
and otherwise the one that is there is extended. -/
def select (e : LineEdit) (m : Motion) : LineEdit :=
  let anchor :=
    match m with
    | .lineStart | .lineEnd => e.cursor
    | _ => e.anchor
  { e with anchor, cursor := e.target m }

def delete (e : LineEdit) (m : Motion) : LineEdit :=
  if e.hasSelection then e.insert []
  else e.replace (min e.cursor (e.target m)) (max e.cursor (e.target m)) []

end LineEdit
end JsonnetPreview
