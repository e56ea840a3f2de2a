import JsonnetPreview.Config.Settings
import JsonnetPreview.Config.Store
import JsonnetPreview.Preview.Reformat
import JsonnetPreview.Renderer.Command
import JsonnetPreview.Report.Diagnostic
import JsonnetPreview.Text.Lines
import JsonnetPreview.Watch.Watcher
import JsonnetPreview.World.FileFault

namespace JsonnetPreview

inductive Fault where
  | store (fault : StoreFault)
  | file (fault : FileFault)
  | undecodable (error : Utf8.DecodeError)
  | setting (fault : SettingFault)
  | numeralTooLong (cause : NumeralTooLong)
  | reformat (error : ReformatError)
  | unsupportedFormat (name : Text)
  | watch (fault : WatchFault)
  | run (message : Text)
  | unencodable (error : EncodeError)
  deriving DecidableEq, Repr

def Fault.message : Fault → Text
  | store fault => fault.message
  | file fault => fault.message
  | undecodable error => error.message
  | setting fault => fault.message
  | numeralTooLong cause => cause.message
  | reformat error => error.message
  | unsupportedFormat name => "Unsupported output format '" ++ name ++ "'"
  | watch fault => fault.message
  | run message => message
  | unencodable error => error.message

def Fault.ofCommand : CommandFault → Fault
  | .setting fault => setting fault
  | .file fault => file fault
  | .run message => run message

open Report

structure DocumentState where
  path : Text := []
  source : Text := []
  lines : List Text := []
  preview : Text := []
  /-- The name of a format; a setting may hold any value. -/
  format : Json := .str "json"
  failed : Bool := false
  /-- The report of the last render, empty if it did not fail. -/
  report : Text := []
  externals : VariableTable := []
  diagnostics : DiagnosticSet := []
  /-- When a preview was last shown, zero before the first one. -/
  lastUpdate : Nat := 0

namespace DocumentState

def hasErrors (s : DocumentState) : Bool :=
  s.failed || s.diagnostics.any fun (_, ds) => ds.any (·.severity = .error)

def errorCount (s : DocumentState) : Nat := s.diagnostics.count

/-- The diagnostics of all files that are the same place as a path, in order. Compilers name files
relative to the current directory or not, so places are compared and not names. -/
def diagnosticsAt (s : DocumentState) (directory : Path) (path : Text) :
    Except FileFault (List Diagnostic) := do
  let target ← Path.place directory path
  let found ← s.diagnostics.mapM fun (file, ds) => do return (← Path.place directory file, ds)
  return (found.filter (·.1 = target)).flatMap (·.2)

def diagnosticsFor (s : DocumentState) (directory : Path) (path : Option Text) :
    Except FileFault (List Diagnostic) :=
  match path with
  | none => s.diagnosticsAt directory s.path
  | some [] => s.diagnosticsAt directory s.path
  | some path => s.diagnosticsAt directory path

def line? (s : DocumentState) : Int → Option Text
  | .ofNat n => s.lines[n]?
  | .negSucc _ => none

def withSource (s : DocumentState) (source : Text) : DocumentState :=
  { s with source, lines := source.lines }

def withPreview (s : DocumentState) (preview : Text) (failed : Bool) : DocumentState :=
  { s with preview, failed }

end DocumentState
end JsonnetPreview
