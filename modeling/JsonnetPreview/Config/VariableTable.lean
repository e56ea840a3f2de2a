import JsonnetPreview.Json.Display
import JsonnetPreview.Json.Printer
import JsonnetPreview.Table
import JsonnetPreview.Text.Blank

namespace JsonnetPreview

structure VariableName where
  value : Json

instance : BEq VariableName := ⟨fun a b => a.value.sameKey b.value⟩

def VariableName.member : VariableName → Text
  | ⟨.str t⟩ => t
  | ⟨v⟩ => v.compact

abbrev VariableTable := Table VariableName Json

namespace VariableTable

def ofTexts (pairs : List (Text × Text)) : VariableTable :=
  Table.ofPairs (pairs.map fun (k, v) => (⟨.str k⟩, .str v))

def toTexts (t : VariableTable) : List (Text × Text) :=
  t.map fun (k, v) => (k.value.display, v.display)

def toJson (t : VariableTable) : Json := .obj (t.map fun (k, v) => (k.member, v))

end VariableTable
namespace Variables

/-- A pair is cut at its first equals sign. One without a name or without the sign is none. -/
def pair? (word : Text) : Option (Text × Text) :=
  match Text.breakAt (· = .char '=') word with
  | ([], _) => none
  | (_, none) => none
  | (name, some value) => some (name, value)

/-- Words that are no pairs are left out, and the last value of a name counts. -/
def parse (t : Text) : Table Text Text := Table.ofPairs ((Text.words t).filterMap pair?)

def assignment (name value : Text) : Text := name ++ .char '=' :: value

def format (externals : List (Text × Text)) : Text :=
  Text.joinWith " " (externals.map fun (name, value) => assignment name value)

end Variables
end JsonnetPreview
