import JsonnetPreview.Config.Basic
import JsonnetPreview.World.Path

namespace JsonnetPreview

inductive SettingFault where
  | notIterable (kind : Text)
  | notAPair (index : Nat)
  | wrongLength (index length : Nat)
  | badKey (kind : Text)
  | rootNotText (kind : Text)
  | wordNotText (kind : Text)
  | assignmentNotText (kind : Text)
  deriving DecidableEq, Repr

def SettingFault.message : SettingFault → Text
  | notIterable kind => "'" ++ kind ++ "' object is not iterable"
  | notAPair index =>
    "cannot convert dictionary update sequence element #" ++ Text.ofNat index ++ " to a sequence"
  | wrongLength index length =>
    "dictionary update sequence element #" ++ Text.ofNat index ++ " has length " ++
      Text.ofNat length ++ "; 2 is required"
  | badKey kind => "unhashable type: '" ++ kind ++ "'"
  | rootNotText kind => "replace() argument 2 must be str, not " ++ kind
  | wordNotText kind => "expected string or bytes-like object, got '" ++ kind ++ "'"
  | assignmentNotText kind => "'" ++ kind ++ "' object has no attribute 'partition'"

namespace Config

def workspaceRoot (c : Config) (directory : Path) : Json :=
  let folder := c.get workspaceFolder
  if folder.isGiven then folder else .str directory.toText

def workspaceMark : Text := "$\x7bworkspaceFolder\x7d"

/-- Put `new` in the place of each occurrence of `old`, from left to right; the first `skip`
elements belong to an occurrence that is replaced already. -/
def replaceFrom (old new : Text) (skip : Nat) : Text → Text
  | [] => []
  | c :: r =>
    match skip with
    | skip + 1 => replaceFrom old new skip r
    | 0 =>
      if old.isPrefixOf (c :: r) then new ++ replaceFrom old new (old.length - 1) r
      else c :: replaceFrom old new 0 r

def elementsOf (v : Json) : Except SettingFault (List Json) :=
  if v.isGiven then
    match v.elements? with
    | some items => .ok items
    | none => .error (.notIterable v.kindName)
  else .ok []

def libraries (c : Config) (directory : Path) : Except SettingFault (List Text) := do
  let items ← elementsOf (c.get libraryPaths)
  match c.workspaceRoot directory with
  | .str root => return items.map fun v => replaceFrom workspaceMark root 0 v.display
  | v => if items.isEmpty then return [] else .error (.rootNotText v.kindName)

def readVariable (index : Nat) (v : Json) : Except SettingFault (VariableName × Json) :=
  match v.elements? with
  | none => .error (.notAPair index)
  | some [.arr _, _] => .error (.badKey (Json.arr []).kindName)
  | some [.obj _, _] => .error (.badKey (Json.obj []).kindName)
  | some [k, v] => .ok (⟨k⟩, v)
  | some items => .error (.wrongLength index items.length)

def variablesOf : Nat → List Json → Except SettingFault (List (VariableName × Json))
  | _, [] => .ok []
  | index, v :: rest => do
    let pair ← readVariable index v
    return pair :: (← variablesOf (index + 1) rest)

/-- The variables that a setting gives: the members of an object, or the pairs among the elements of
another value. -/
def variablesIn : Json → Except SettingFault VariableTable
  | .obj members => .ok (Table.ofPairs (members.map fun (k, v) => (⟨.str k⟩, v)))
  | v => do return Table.ofPairs (← variablesOf 0 (← elementsOf v))

def externalVariables (c : Config) : Except SettingFault VariableTable :=
  match c.given with
  | some t => .ok t
  | none => variablesIn (c.get externals)

end Config
end JsonnetPreview
