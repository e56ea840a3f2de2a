import JsonnetPreview.Panel.Markup.Token

namespace JsonnetPreview.Markup

inductive TagFault where
  /-- Something that cannot stand in a value, and the rest of its line. -/
  | notAValue (rest : Text)
  | nothingToClose
  | notOpen (tag : Text)
  deriving DecidableEq, Repr

def TagFault.message : TagFault → Text
  | notAValue rest =>
    "Expected markup value (found " ++ Text.quoted (rest.takeWhile (· ≠ .char ';')) ++ ")."
  | nothingToClose => "auto closing tag ('[/]') has nothing to close"
  | notOpen tag => "closing tag '[/" ++ tag ++ "]' does not match any open tag"

structure Tag where
  closes : Bool
  body : Text := []
  /-- Whether something in it can be no part of a tag. -/
  isText : Bool := false
  /-- How many brackets are open in the value that is read, if one is. -/
  depth : Option Nat := none
  deriving DecidableEq, Repr

structure State where
  /-- The names of the tags that are open, the last one first. -/
  opened : List Text := []
  tag : Option Tag := none
  deriving DecidableEq, Repr

namespace State

def close (s : State) (body : Text) : Except TagFault State :=
  let name := tagName body
  if name.isEmpty then
    match s.opened with
    | [] => .error .nothingToClose
    | _ :: opened => .ok { opened }
  else if s.opened.contains name then .ok { opened := s.opened.erase name }
  else .error (.notOpen body)

def endTag (s : State) (tag : Tag) : Except TagFault State :=
  let body := Text.trim tag.body
  if tag.closes then s.close body
  else if tag.isText || body.isEmpty then .ok { s with tag := none }
  else .ok { opened := tagName body :: s.opened }

def stepTag (s : State) (tag : Tag) (escaped : Bool) (t : Text) : Except TagFault (State × Nat) :=
  let (kind, n) := tagToken escaped t
  let tag := { tag with body := tag.body ++ t.take n }
  match kind with
  | .close => (s.endTag { tag with body := tag.body.dropLast }).map (·, n)
  | .key => .ok ({ s with tag := some { tag with depth := some 0 } }, n)
  | .part => .ok ({ s with tag := some tag }, n)
  | .text => .ok ({ s with tag := some { tag with isText := true } }, n)

/-- Go on in the value of a tag. A bracket that closes no other one ends the tag. -/
def stepValue (s : State) (tag : Tag) (depth : Nat) (t : Text) : Except TagFault (State × Nat) :=
  match valueToken? t with
  | none => .error (.notAValue t)
  | some (kind, n) =>
    let goOn (depth : Nat) : Except TagFault (State × Nat) :=
      .ok ({ s with tag := some { tag with body := tag.body ++ t.take n, depth := some depth } }, n)
    match kind, depth with
    | .opening, depth => goOn (depth + 1)
    | .closing, depth + 1 => goOn depth
    | .closing, 0 => if t.head? = some (.char ']') then (s.endTag tag).map (·, n) else goOn 0
    | .part, depth => goOn depth

def step (s : State) (escaped : Bool) (t : Text) : Except TagFault (State × Nat) :=
  match s.tag with
  | some tag =>
    match tag.depth with
    | some depth => s.stepValue tag depth t
    | none => s.stepTag tag escaped t
  | none =>
    match t with
    | .char '[' :: r =>
      if escaped then .ok (s, 1)
      else if r.head? = some (.char '/') then .ok ({ s with tag := some { closes := true } }, 2)
      else .ok ({ s with tag := some { closes := false } }, 1)
    | _ => .ok (s, 1)

/-- Read the rest of a line, whose first `skip` elements belong to a token that is read already. -/
def readLine (s : State) (escaped : Bool) (skip : Nat) : Text → Except TagFault State
  | [] => .ok s
  | c :: r =>
    match skip with
    | skip + 1 => readLine s (c = .char '\\') skip r
    | 0 => do
      let (s, n) ← s.step escaped (c :: r)
      readLine s (c = .char '\\') (n - 1) r

def finish (s : State) : Except TagFault Unit :=
  match s.tag with
  | some tag => if tag.closes then (s.close (Text.trim tag.body)).map fun _ => () else .ok ()
  | none => .ok ()

end State

def check (t : Text) : Except TagFault Unit := do
  let s ← (Text.linesWithBreaks t).foldlM (fun s line => s.readLine false 0 line) ({} : State)
  s.finish

end JsonnetPreview.Markup
