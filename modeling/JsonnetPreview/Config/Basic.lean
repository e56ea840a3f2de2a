import JsonnetPreview.Config.VariableTable

namespace JsonnetPreview

structure Config where
  settings : Table Text Json
  /-- Variables that were given in place of those of the settings. A setting holds them as an
  object, but their names need not be strings. -/
  given : Option VariableTable := none

namespace Config

def executable : Text := "executable"

def kubecfgExecutable : Text := "kubecfg_executable"

def libraryPaths : Text := "lib_paths"

def externals : Text := "ext_strs"

def outputFormat : Text := "output_format"

def yamlStream : Text := "yaml_stream"

def workspaceFolder : Text := "workspace_folder"

def timeout : Text := "timeout"

def logFile : Text := "log_file"

def defaults : Config where
  settings :=
    [(executable, .str "jsonnet"), (kubecfgExecutable, .null), (libraryPaths, .arr []),
     (externals, .obj []), (outputFormat, .str "json"), (yamlStream, .bool false),
     (workspaceFolder, .null), (timeout, .null), (logFile, .str "/tmp/jsonnetpeek.log")]

def get? (c : Config) (name : Text) : Option Json := c.settings.get? name

def get (c : Config) (name : Text) : Json := (c.get? name).getD .null

/-- Another value of a setting; variables come from the settings again if these are set. -/
def set (c : Config) (name : Text) (v : Json) : Config where
  settings := c.settings.set name v
  given := if name = externals then none else c.given

def withVariables (c : Config) (t : VariableTable) : Config :=
  { c.set externals t.toJson with given := some t }

/-- Set several settings; one without a value stays as it is. -/
def override (c : Config) (values : List (Text × Json)) : Config :=
  values.foldl (fun c (name, v) =>
    match v with
    | .null => c
    | v => c.set name v) c

/-- The defaults, and over them the members of an object. A value of any other kind sets nothing. -/
def ofJson : Json → Config
  | .obj members => { settings := defaults.settings.setAll members }
  | _ => defaults

end Config
end JsonnetPreview
