import JsonnetPreview.Text.Blank

namespace JsonnetPreview.Stream

/-- A line that holds a mark and nothing else but blanks and tabs. -/
def isMarkLine (mark line : Text) : Bool :=
  match mark.isPrefixOf? line with
  | some rest => rest.all fun c => c = .char ' ' || c = .char '\t'
  | none => false

def separator : Text := "---"

def endMark : Text := "..."

def splitLines : Text → List Text
  | [] => [[]]
  | c :: r =>
    if c = .char '\n' then [] :: splitLines r
    else
      match splitLines r with
      | [] => [[c]]
      | line :: rest => (c :: line) :: rest

def splitAtLines (p : Text → Bool) : List Text → List (List Text)
  | [] => [[]]
  | line :: r =>
    if p line then [] :: splitAtLines p r
    else
      match splitAtLines p r with
      | [] => [[line]]
      | part :: rest => (line :: part) :: rest

/-- The documents of a stream that are not blank, each without the white space around it. -/
def documents (t : Text) : List Text :=
  let lines := (splitLines t).takeWhile fun line => !isMarkLine endMark line
  let parts := splitAtLines (isMarkLine separator) lines
  (parts.map fun part => Text.trim (Text.joinWith "\n" part)).filter fun part => !part.isEmpty

/-- The documents of a stream as the items of one array. -/
def join (t : Text) : Text := .char '[' :: (Text.joinWith "," (documents t) ++ [.char ']'])

end JsonnetPreview.Stream
