import JsonnetPreview.Yaml.Resolver

namespace JsonnetPreview.Yaml

def isBreak (c : CodePoint) : Bool :=
  c = .char '\n' || c = .char '\x85' || c.value = 0x2028 || c.value = 0x2029

def isGap (c : CodePoint) : Bool :=
  isBreak c || c = .char ' ' || c = .char '\t' || c = .char '\r' || c.value = 0

def isPrintable (c : CodePoint) : Bool :=
  let n := c.value
  n = 0x0A || (0x20 ≤ n && n ≤ 0x7E) || n = 0x85 || (0xA0 ≤ n && n ≤ 0xD7FF) ||
    (0xE000 ≤ n && n ≤ 0xFFFD && n ≠ 0xFEFF) || (0x10000 ≤ n && n < 0x10FFFF)

def startsWithGap : Text → Bool
  | [] => true
  | c :: _ => isGap c

def multiline (t : Text) : Bool := t.any isBreak

def hasPair (p q : CodePoint → Bool) (t : Text) : Bool :=
  (t.zip t.tail).any fun (c, d) => p c && q d

def isBlank (c : CodePoint) : Bool := c = .char ' '

def hasInnerIndicator : Text → Bool
  | [] => false
  | c :: r =>
    (c = .char ':' && startsWithGap r) || (isGap c && r.head? = some (.char '#')) ||
      hasInnerIndicator r

def leadingIndicators : List Char :=
  ['#', ',', '[', ']', '\x7b', '\x7d', '&', '*', '!', '|', '>', '\'', '"', '%', '@', '\x60']

def hasLeadingIndicator (t : Text) : Bool :=
  let documentMark := (Text.ofString "---").isPrefixOf t || (Text.ofString "...").isPrefixOf t
  match t with
  | .char c :: r =>
    documentMark || leadingIndicators.contains c ||
      ((c == '?' || c == ':' || c == '-') && startsWithGap r)
  | _ => documentMark

def hasLooseEnd (t : Text) : Bool :=
  let loose (c : CodePoint) := isBlank c || isBreak c
  t.head?.any loose || t.getLast?.any loose

inductive ScalarStyle where
  | plain
  | single
  | double
  deriving DecidableEq, Repr

/-- A blank at the beginning of a line would be lost, one at the end of a line too, and what cannot
stand for itself needs an escape. -/
def allowsSingle (t : Text) : Bool :=
  t.all isPrintable && !hasPair isBreak isBlank t && !hasPair isBlank isBreak t

def allowsPlain (t : Text) : Bool :=
  allowsSingle t && !multiline t && !hasLooseEnd t && !hasLeadingIndicator t &&
    !hasInnerIndicator t && readsAsString t

def ScalarStyle.of (t : Text) : ScalarStyle :=
  if allowsPlain t then .plain else if allowsSingle t then .single else .double

/-- Where a scalar stands: the indentation of its further lines, and whether it may have any. -/
structure Fold where
  indent : Nat
  split : Bool

def bestWidth : Nat := 80

def Fold.newline (f : Fold) : Text := .char '\n' :: Text.replicate f.indent ' '

/-- Whether a line may be folded at a blank between `prev` and `r`: it stands alone, and not at an
end of the text. -/
def isFoldable (prev : Option CodePoint) (r : Text) : Bool :=
  prev.any (!isBlank ·) && r.head?.any (!isBlank ·)

def writePlain (f : Fold) (column : Nat) (prev : Option CodePoint) : Text → Text
  | [] => []
  | c :: r =>
    if isBlank c && f.split && bestWidth < column && isFoldable prev r then
      f.newline ++ writePlain f f.indent (some c) r
    else c :: writePlain f (column + 1) (some c) r

/-- The rest of a text in single quotes. A quote is written twice, and a run of line feeds has one
more of them. -/
def writeSingle (f : Fold) (column : Nat) (prev : Option CodePoint) : Text → Text
  | [] => []
  | c :: r =>
    if isBreak c then
      let more : Text := if c = .char '\n' && !prev.any isBreak then [c] else []
      let pad := if r.head?.any isBreak then [] else Text.replicate f.indent ' '
      more ++ c :: (pad ++ writeSingle f f.indent (some c) r)
    else if c = .char '\'' then c :: c :: writeSingle f (column + 2) (some c) r
    else if isBlank c && f.split && bestWidth < column && isFoldable prev r then
      f.newline ++ writeSingle f f.indent (some c) r
    else c :: writeSingle f (column + 1) (some c) r

def hexDigits (width n : Nat) : Text :=
  (List.range width).reverse.map fun i => .char (Nat.digitChar (n / Nat.pow 16 i % 16)).toUpper

def escape? (c : CodePoint) : Option Text :=
  let short (c : Char) : Option Text := some [.char '\\', .char c]
  match c.value with
  | 0x00 => short '0'
  | 0x07 => short 'a'
  | 0x08 => short 'b'
  | 0x09 => short 't'
  | 0x0A => short 'n'
  | 0x0B => short 'v'
  | 0x0C => short 'f'
  | 0x0D => short 'r'
  | 0x1B => short 'e'
  | 0x22 => short '"'
  | 0x5C => short '\\'
  | 0x85 => short 'N'
  | 0x2028 => short 'L'
  | 0x2029 => short 'P'
  | n =>
    if (0x20 ≤ n && n ≤ 0x7E) || (0xA0 ≤ n && n ≤ 0xD7FF) ||
        (0xE000 ≤ n && n ≤ 0xFFFD && n ≠ 0xFEFF) then none
    else if n ≤ 0xFF then some (.char '\\' :: .char 'x' :: hexDigits 2 n)
    else if n ≤ 0xFFFF then some (.char '\\' :: .char 'u' :: hexDigits 4 n)
    else some (.char '\\' :: .char 'U' :: hexDigits 8 n)

/-- A line in double quotes ends with a backslash, and another one keeps a blank at the beginning of
the next line. -/
def breakDouble (f : Fold) (startsWithBlank : Bool) : Text :=
  .char '\\' :: (f.newline ++ if startsWithBlank then [.char '\\'] else [])

def columnAfterBreak (f : Fold) (startsWithBlank : Bool) : Nat :=
  f.indent + if startsWithBlank then 1 else 0

/-- The rest of a text in double quotes. A line may end before a blank and on either side of an
escape, but not before or behind the first and not behind the last element of the text: `inner` says
whether something stands before this element, and `loose` whether that is an escape. -/
def writeDouble (f : Fold) (column : Nat) (inner loose : Bool) : Text → Text
  | [] => []
  | c :: r =>
    let mayBreak := f.split && inner && !r.isEmpty
    match escape? c with
    | some e =>
      let column := column + e.length
      if mayBreak && bestWidth + 1 < column then
        let blank := r.head?.any isBlank
        e ++ breakDouble f blank ++ writeDouble f (columnAfterBreak f blank) true true r
      else e ++ writeDouble f column true true r
    | none =>
      if mayBreak && (isBlank c || loose) && bestWidth < column then
        breakDouble f (isBlank c) ++
          c :: writeDouble f (columnAfterBreak f (isBlank c) + 1) true false r
      else c :: writeDouble f (column + 1) true false r

def quoted (q : Char) (body : Text) : Text := .char q :: (body ++ [.char q])

def writeString (f : Fold) (column : Nat) (t : Text) : Text :=
  match ScalarStyle.of t with
  | .plain => writePlain f column none t
  | .single => quoted '\'' (writeSingle f (column + 1) none t)
  | .double => quoted '"' (writeDouble f (column + 1) false false t)

end JsonnetPreview.Yaml
