import JsonnetPreview.Report.Extract
import JsonnetPreview.Renderer.Run
import JsonnetPreview.Session.State

namespace JsonnetPreview.CommandLine

open Report

structure Check where
  output : Text := []
  errors : Text := []
  failed : Bool := false
  world : World

namespace Check

def complain (s : Check) (t : Text) : Check :=
  { s with errors := s.errors ++ t ++ [CodePoint.char '\n'] }

def fail (s : Check) : Check := { s with failed := true }

def complainOf (s : Check) (report : Text) (found : DiagnosticSet) : Check :=
  if found.isEmpty then s.complain report
  else
    (found.flatMap fun (file, ds) => ds.map (Diagnostic.line file)).foldl complain s

abbrev Step := Check × Option Fault

def print (s : Check) (t : Text) : Step :=
  match s.world.encoding.refusal? t with
  | none => ({ s with output := s.output ++ t ++ [CodePoint.char '\n'] }, none)
  | some e => (s, some (.unencodable e))

def showFailure (s : Check) (report : Text) : Step :=
  match extract report with
  | .ok e => ({ s.fail with world := s.world.noticeAll e.notices }.complainOf report e.found, none)
  | .error e =>
    ({ s.fail with world := s.world.noticeAll e.notices }, some (.numeralTooLong e.cause))

def showRendered [Stack] (s : Check) (file text format : Text) : Step :=
  match (Payload.rendered text).reformat format with
  | .ok shown => s.print shown
  | .error (.malformed m) =>
    (s.fail.complain ("Error: " ++ file ++ ": " ++ (ReformatError.malformed m).message), none)
  | .error e => (s, some (.reformat e))

def formatOf (c : Config) : Text := ((c.get? Config.outputFormat).getD (.str "json")).display

def checkFile [Stack] (r : Renderer) (c : Config) (s : Check) (file : Text) : Step :=
  match r.render c s.world file with
  | (.error e, world) => ({ s with world }, some (.ofCommand e))
  | (.ok rendering, world) =>
    match Payload.ofOutcome rendering.output rendering.report with
    | .failure report => { s with world }.showFailure report
    | .rendered text => { s with world }.showRendered file text (formatOf c)

def checkAll [Stack] (r : Renderer) (c : Config) : Check → List Text → Step
  | s, [] => (s, none)
  | s, file :: rest =>
    match checkFile r c s file with
    | (s, none) => checkAll r c s rest
    | (s, some fault) => (s, some fault)

def run [Stack] (c : Config) (w : World) (files : List Text) : Step :=
  let (r, world) := Renderer.ofConfig c w
  checkAll r c { world } files

end Check
end JsonnetPreview.CommandLine
