import JsonnetPreview.Text.Blank
import JsonnetPreview.Text.Digit

namespace JsonnetPreview.Report

/-- A line and a column counted from one. -/
structure Location where
  line : Nat
  column : Nat
  deriving DecidableEq, Repr

instance : LT Location where
  lt a b := a.line < b.line ∨ (a.line = b.line ∧ a.column < b.column)

instance (a b : Location) : Decidable (a < b) :=
  inferInstanceAs (Decidable (a.line < b.line ∨ (a.line = b.line ∧ a.column < b.column)))

structure LocationRange where
  first : Location
  last : Location
  deriving DecidableEq, Repr

/-- A line and a column counted from zero. -/
structure Position where
  line : Int
  character : Int
  deriving DecidableEq, Repr

/-- A range of an editor, from `start` up to but not including `stop`. -/
structure Range where
  start : Position
  stop : Position
  deriving DecidableEq, Repr

/-- The last column stays as it is: the compiler's last column counted from one is the column
behind it counted from zero. -/
def LocationRange.toRange (r : LocationRange) : Range where
  start := ⟨r.first.line - 1, r.first.column - 1⟩
  stop := ⟨r.last.line - 1, r.last.column⟩

inductive Piece where
  | mark (c : Char)
  | numeral
  deriving DecidableEq, Repr

/-- The shapes in which a range is written: `(1:2)-(3:4)`, `1:2-3:4`, `1:2-4` and `1:2`. -/
inductive Shape where
  | parenthesized
  | multiline
  | line
  | point
  deriving DecidableEq, Repr

namespace Shape

def all : List Shape := [parenthesized, multiline, line, point]

def pieces : Shape → List Piece
  | parenthesized =>
    [.mark '(', .numeral, .mark ':', .numeral, .mark ')', .mark '-',
     .mark '(', .numeral, .mark ':', .numeral, .mark ')']
  | multiline => [.numeral, .mark ':', .numeral, .mark '-', .numeral, .mark ':', .numeral]
  | line => [.numeral, .mark ':', .numeral, .mark '-', .numeral]
  | point => [.numeral, .mark ':', .numeral]

/-- The range that the numbers of a shape denote. A shape without a second line stays on the
first one, and one without a second column stays at the first one. -/
def denote : Shape → List Nat → Option LocationRange
  | parenthesized, [l, c, l', c'] | multiline, [l, c, l', c'] => some ⟨⟨l, c⟩, ⟨l', c'⟩⟩
  | line, [l, c, c'] => some ⟨⟨l, c⟩, ⟨l, c'⟩⟩
  | point, [l, c] => some ⟨⟨l, c⟩, ⟨l, c⟩⟩
  | _, _ => none

end Shape

def scanPieces : List Piece → Text → Option (List Numeral × Text)
  | [], t => some ([], t)
  | .mark _ :: _, [] => none
  | .mark m :: ps, c :: t => if c = .char m then scanPieces ps t else none
  | .numeral :: ps, t =>
    match Numeral.scan t with
    | ([], _) => none
    | (n, rest) => (scanPieces ps rest).map fun (ns, rest) => (n :: ns, rest)

def endsPosition : Text → Bool
  | [] => true
  | c :: _ => c.isBlank || c = .char ':'

structure Reading where
  shape : Shape
  numerals : List Numeral
  rest : Text
  deriving DecidableEq, Repr

namespace Reading

def ofShape? (shape : Shape) (t : Text) : Option Reading := do
  let (numerals, rest) ← scanPieces shape.pieces t
  if endsPosition rest then some ⟨shape, numerals, rest⟩ else none

/-- The first shape that fits. Where two of them fit, the longer one comes first. -/
def of? (t : Text) : Option Reading := Shape.all.findSome? (ofShape? · t)

def skipLead (t : Text) : Text :=
  match t.trimStart with
  | .char ':' :: r => Text.trimStart r
  | r => r

end Reading

def LocationRange.isValid (r : LocationRange) : Bool :=
  1 ≤ r.first.line && 1 ≤ r.first.column && 1 ≤ r.last.line && 1 ≤ r.last.column &&
    !decide (r.last < r.first)

/-- The range at the beginning of a text, whatever follows it. A text that begins with a position
that is no valid range has none: no shorter position is tried in its place. -/
def LocationRange.read? (t : Text) : Except NumeralTooLong (Option LocationRange) :=
  match Reading.of? (Reading.skipLead t) with
  | none => .ok none
  | some reading => do
    let numbers ← reading.numerals.mapM Numeral.value?
    return (reading.shape.denote numbers).filter LocationRange.isValid

/-- The number of elements that the position at the beginning of a text and its lead take up, or
zero if there is no position. -/
def positionLength (t : Text) : Nat :=
  match Reading.of? (Reading.skipLead t) with
  | none => 0
  | some reading => t.length - reading.rest.length

end JsonnetPreview.Report
