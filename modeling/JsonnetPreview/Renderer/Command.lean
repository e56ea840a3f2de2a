import JsonnetPreview.Config.Settings
import JsonnetPreview.Ksonnet
import JsonnetPreview.Config.VariableTable
import JsonnetPreview.World.Basic

namespace JsonnetPreview

inductive CommandFault where
  | setting (fault : SettingFault)
  | file (fault : FileFault)
  | run (message : Text)
  deriving DecidableEq, Repr

def CommandFault.message : CommandFault → Text
  | setting fault => fault.message
  | file fault => fault.message
  | run message => message

/-- The programs that render. The first one is run as it is named, wherever it was found; the second
one is tried before it if it is given. -/
structure Renderer where
  executable : Json
  path : Option Text
  kubecfg : Json

namespace Renderer

def withOption (option : String) (values : List Text) : List Text :=
  values.flatMap fun value => [Text.ofString option, value]

def withAssignments (option : String) (pairs : List (Text × Text)) : List Text :=
  withOption option (pairs.map fun (k, v) => Variables.assignment k v)

/-- The arguments that both programs get: where libraries are, the external variables, the imports
of a component, and last the file. -/
def arguments (c : Config) (w : World) (file : Text) : Except CommandFault (List Text) := do
  let libraries ← (c.libraries w.directory).mapError .setting
  let externals ← c.externalVariables.mapError .setting
  let imports ← (Ksonnet.imports w.files w.directory file).mapError .file
  return withOption "-J" libraries ++ withAssignments "--ext-str" externals.toTexts ++
    withAssignments "--ext-code-file" imports ++ [file]

def command (r : Renderer) (c : Config) (w : World) (file : Text) :
    Except CommandFault Command := do
  let arguments ← arguments c w file
  let stream := if (c.get Config.yamlStream).isGiven then [Text.ofString "-y"] else []
  return ⟨r.executable, stream ++ arguments⟩

def kubecfgCommand (r : Renderer) (c : Config) (w : World) (file : Text) :
    Except CommandFault Command := do
  let arguments ← arguments c w file
  return ⟨r.kubecfg, [Text.ofString "show", Text.ofString "-o", Text.ofString "json"] ++ arguments⟩

end Renderer
end JsonnetPreview
