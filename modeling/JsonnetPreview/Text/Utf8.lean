import JsonnetPreview.Text.Basic

namespace JsonnetPreview

abbrev Octets := List UInt8

namespace Utf8

inductive Flaw where
  | invalidStart
  | invalidContinuation
  | unexpectedEnd
  deriving DecidableEq, Repr

structure DecodeError where
  flaw : Flaw
  offset : Nat
  length : Nat
  first : Nat
  deriving DecidableEq, Repr

def isContinuation (b : Nat) : Bool := 0x80 ≤ b && b < 0xC0

def width? (b : Nat) : Option Nat :=
  if b < 0x80 then some 1
  else if b < 0xC2 then none
  else if b < 0xE0 then some 2
  else if b < 0xF0 then some 3
  else if b < 0xF5 then some 4
  else none

/-- Whether a second byte may follow the first: besides being a continuation it must not make a
longer form than needed, half of a surrogate pair, or a number beyond all characters. -/
def mayFollow (first second : Nat) : Bool :=
  isContinuation second &&
    !(first == 0xE0 && second < 0xA0) && !(first == 0xED && 0xA0 ≤ second) &&
    !(first == 0xF0 && second < 0x90) && !(first == 0xF4 && 0x90 ≤ second)

/-- How many of the bytes behind the first one go on with its character, of `n` that it needs. -/
def continuations (first n : Nat) (rest : List Nat) : Nat :=
  match n, rest with
  | 0, _ => 0
  | _, [] => 0
  | n + 1, second :: rest =>
    if mayFollow first second then 1 + (rest.take n |>.takeWhile isContinuation).length else 0

def number (width first : Nat) (rest : List Nat) : Nat :=
  let lead := match width with
    | 1 => first
    | 2 => first - 0xC0
    | 3 => first - 0xE0
    | _ => first - 0xF0
  rest.foldl (fun n b => n * 0x40 + (b - 0x80)) lead

def decodeFirst (offset first : Nat) (rest : List Nat) : Except DecodeError (CodePoint × Nat) :=
  match width? first with
  | none => .error ⟨.invalidStart, offset, 1, first⟩
  | some width =>
    let found := continuations first (width - 1) rest
    if found = width - 1 then
      .ok (.ofValue (number width first (rest.take found)), width)
    else if found = rest.length then
      .error ⟨.unexpectedEnd, offset, found + 1, first⟩
    else .error ⟨.invalidContinuation, offset, found + 1, first⟩

def decodeFrom (offset skip : Nat) : List Nat → Except DecodeError Text
  | [] => .ok []
  | b :: rest =>
    match skip with
    | skip + 1 => decodeFrom (offset + 1) skip rest
    | 0 => do
      let (c, width) ← decodeFirst offset b rest
      return c :: (← decodeFrom (offset + 1) (width - 1) rest)

def decode (bytes : Octets) : Except DecodeError Text :=
  decodeFrom 0 0 (bytes.map UInt8.toNat)

def encodeNumber (n : Nat) : List Nat :=
  if n < 0x80 then [n]
  else if n < 0x800 then [0xC0 + n / 0x40, 0x80 + n % 0x40]
  else if n < 0x10000 then [0xE0 + n / 0x1000, 0x80 + n / 0x40 % 0x40, 0x80 + n % 0x40]
  else [0xF0 + n / 0x40000, 0x80 + n / 0x1000 % 0x40, 0x80 + n / 0x40 % 0x40, 0x80 + n % 0x40]

def encode (t : Text) : Octets := t.flatMap fun c => (encodeNumber c.value).map UInt8.ofNat

def hexByte (n : Nat) : Text := [.char (Nat.digitChar (n / 16)), .char (Nat.digitChar (n % 16))]

def Flaw.description : Flaw → Text
  | invalidStart => "invalid start byte"
  | invalidContinuation => "invalid continuation byte"
  | unexpectedEnd => "unexpected end of data"

def DecodeError.message (e : DecodeError) : Text :=
  let place : Text :=
    if e.length = 1 then
      " byte 0x" ++ hexByte e.first ++ " in position " ++ Text.ofNat e.offset
    else
      " bytes in position " ++ Text.ofNat e.offset ++ .char '-' ::
        Text.ofNat (e.offset + e.length - 1)
  "'utf-8' codec can't decode" ++ place ++ ": " ++ e.flaw.description

end Utf8
end JsonnetPreview
