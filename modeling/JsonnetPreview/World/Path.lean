import JsonnetPreview.Text.Basic

namespace JsonnetPreview

/-- What a path starts from. Exactly two slashes are kept apart from one. -/
inductive Anchor where
  | relative
  | root
  | doubleRoot
  deriving DecidableEq, Repr

def Anchor.text : Anchor → Text
  | relative => []
  | root => "/"
  | doubleRoot => "//"

structure Path where
  anchor : Anchor
  parts : List Text
  deriving DecidableEq, Repr

namespace Path

def isSlash (c : CodePoint) : Bool := c = .char '/'

def split : Text → List Text
  | [] => [[]]
  | c :: r =>
    if isSlash c then [] :: split r
    else
      match split r with
      | [] => [[c]]
      | part :: rest => (c :: part) :: rest

def anchorOf (t : Text) : Anchor :=
  match (t.takeWhile isSlash).length with
  | 0 => .relative
  | 2 => .doubleRoot
  | _ => .root

def here : Text := "."

def up : Text := ".."

def ofText (t : Text) : Path where
  anchor := anchorOf t
  parts := (split t).filter fun part => !part.isEmpty && part ≠ here

def toText (p : Path) : Text :=
  match p.anchor, p.parts with
  | .relative, [] => here
  | a, parts => a.text ++ Text.joinWith "/" parts

def isAbsolute (p : Path) : Bool := p.anchor ≠ .relative

def name (p : Path) : Text := p.parts.getLast?.getD []

/-- The path above, which for a path without parts is the path itself. -/
def parent (p : Path) : Path := { p with parts := p.parts.dropLast }

def join (p : Path) (parts : List Text) : Path := { p with parts := p.parts ++ parts }

def absolute (directory p : Path) : Path := if p.isAbsolute then p else directory.join p.parts

/-- The part of a name from its last dot on, unless that dot is its first or its last element. -/
def suffixOf (name : Text) : Text :=
  let tail := name.reverse.takeWhile (· ≠ .char '.')
  if tail.isEmpty || name.length ≤ tail.length + 1 then [] else .char '.' :: tail.reverse

def suffix (p : Path) : Text := suffixOf p.name

def walk (visited : List Text) (part : Text) : List Text :=
  if part = up then visited.dropLast else visited ++ [part]

def resolve (p directory : Path) : List Text := (absolute directory p).parts.foldl walk []

def normal (p directory : Path) : Path where
  anchor := (absolute directory p).anchor
  parts := p.resolve directory

def ofPlace (parts : List Text) : Text := .char '/' :: Text.joinWith "/" parts

end Path
end JsonnetPreview
