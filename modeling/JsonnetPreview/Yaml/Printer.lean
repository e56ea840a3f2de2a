import JsonnetPreview.Json.Basic
import JsonnetPreview.Yaml.Scalar

namespace JsonnetPreview.Yaml

def layout : Layout where
  infinity := ".inf"
  nan := ".nan"
  pointBeforeExponent := true

/-- A key stands on one line with its colon if it is short: its text and its tag `!!str` have less
than 128 elements. -/
def isSimpleKey (key : Text) : Bool := key.length + 5 < 128 && !key.isEmpty && !multiline key

def writeLeaf (f : Fold) (column : Nat) : Json → Text
  | .null => "null"
  | .bool b => if b then "true" else "false"
  | .int n => Text.ofInt n
  | .float x => layout.render x
  | .str t => writeString f column t
  | .arr _ => "[]"
  | .obj _ => "\x7b\x7d"

def lineStart (indent : Nat) : Text := .char '\n' :: Text.replicate indent ' '

def memberText (indent : Nat) (key : Text) (afterKey : Nat → Text)
    (afterIndicator : Unit → Text) : Text :=
  if isSimpleKey key then
    let written := writeString ⟨indent + 2, false⟩ indent key
    written ++ .char ':' :: afterKey (indent + written.length + 1)
  else
    .char '?' :: .char ' ' :: (writeString ⟨indent + 2, true⟩ (indent + 2) key ++
      lineStart indent ++ .char ':' :: afterIndicator ())

mutual

/-- What follows the colon of a key, in front of a text: the mapping stands at `indent`, and the
colon ends before `column`. -/
def writeAfterKey (indent column : Nat) (tail : Text) : Json → Text
  | .arr [] => " []" ++ tail
  | .arr items => writeItems indent tail items
  | .obj [] => " \x7b\x7d" ++ tail
  | .obj members => writeMembers (indent + 2) tail members
  | v => .char ' ' :: (writeLeaf ⟨indent + 2, true⟩ (column + 1) v ++ tail)

def writeAfterIndicator (indent : Nat) (tail : Text) : Json → Text
  | .arr (v :: r) =>
    " -" ++ writeAfterIndicator (indent + 2) (writeItems (indent + 2) tail r) v
  | .obj ((k, v) :: r) =>
    let tail := writeMembers (indent + 2) tail r
    .char ' ' :: memberText (indent + 2) k (fun column => writeAfterKey (indent + 2) column tail v)
      (fun _ => writeAfterIndicator (indent + 2) tail v)
  | v => .char ' ' :: (writeLeaf ⟨indent + 2, true⟩ (indent + 2) v ++ tail)

def writeItems (indent : Nat) (tail : Text) : List Json → Text
  | [] => tail
  | v :: r =>
    lineStart indent ++ .char '-' :: writeAfterIndicator indent (writeItems indent tail r) v

def writeMembers (indent : Nat) (tail : Text) : List (Text × Json) → Text
  | [] => tail
  | (k, v) :: r =>
    let tail := writeMembers indent tail r
    lineStart indent ++ memberText indent k (fun column => writeAfterKey indent column tail v)
      (fun _ => writeAfterIndicator indent tail v)

end

/-- A plain scalar may go on over many lines, so a mark ends the document after it. -/
def isOpenEnded : Json → Bool
  | .str t => ScalarStyle.of t = .plain
  | .arr _ => false
  | .obj _ => false
  | _ => true

def writeDocument : Json → Text
  | .arr (v :: r) => (writeItems 0 "\n" (v :: r)).drop 1
  | .obj (m :: r) => (writeMembers 0 "\n" (m :: r)).drop 1
  | v => writeLeaf ⟨2, true⟩ 0 v ++ if isOpenEnded v then "\n...\n" else "\n"

def write? [Stack] (v : Json) : Except Json.NestedTooDeep Text :=
  if Stack.writesYaml v then .ok (writeDocument v) else .error .writingYaml

theorem write?_eq_ok_iff [Stack] {v : Json} {t : Text} :
    write? v = .ok t ↔ Stack.writesYaml v ∧ writeDocument v = t := by
  rw [write?]
  split <;> simp_all

end JsonnetPreview.Yaml
