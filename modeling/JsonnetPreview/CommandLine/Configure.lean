import JsonnetPreview.CommandLine.Arguments
import JsonnetPreview.Config.Settings
import JsonnetPreview.Config.VariableTable

namespace JsonnetPreview.CommandLine

inductive ConfigureFault where
  | setting (fault : SettingFault)
  | noAssignment (word : Text)
  deriving DecidableEq, Repr

def assignAll : VariableTable → List Value → Except ConfigureFault VariableTable
  | t, [] => .ok t
  | _, .empty :: _ => .error (.setting (.assignmentNotText (Json.arr []).kindName))
  | t, .text word :: rest =>
    match Variables.pair? word with
    | some (name, value) => assignAll (t.set ⟨.str name⟩ (.str value)) rest
    | none => .error (.noAssignment word)

namespace Arguments

/-- The library paths of the settings, and behind them those of the arguments. No value means that
the setting stays. -/
def librarySetting (a : Arguments) (c : Config) : Except ConfigureFault Json :=
  if a.libraryPaths.isEmpty then .ok .null
  else
    match Config.elementsOf (c.get Config.libraryPaths) with
    | .ok items => .ok (.arr (items ++ a.libraryPaths.map Value.toJson))
    | .error e => .error (.setting e)

def configureVariables (a : Arguments) (c : Config) : Except ConfigureFault Config :=
  if a.externals.isEmpty then .ok c
  else
    match c.externalVariables with
    | .ok t => (assignAll t a.externals).map c.withVariables
    | .error e => .error (.setting e)

def formatSetting (a : Arguments) : Json := (a.format.map Value.toJson).getD .null

def streamSetting (a : Arguments) : Json := if a.stream then .bool true else .null

def configure (a : Arguments) (c : Config) : Except ConfigureFault Config := do
  let libraries ← a.librarySetting c
  a.configureVariables (c.override
    [(Config.outputFormat, a.formatSetting), (Config.libraryPaths, libraries),
     (Config.yamlStream, a.streamSetting)])

end Arguments
end JsonnetPreview.CommandLine
