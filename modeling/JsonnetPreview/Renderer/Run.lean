import JsonnetPreview.Renderer.Command
import JsonnetPreview.Report.Basic

namespace JsonnetPreview

structure Rendering where
  output : Text
  report : Text
  deriving DecidableEq, Repr

namespace Renderer

def withExecutable (r : Renderer) (executable : Json) (w : World) : Renderer × World :=
  let path := w.findNamed? executable
  ({ r with executable, path },
    if path.isSome then w else w.notice (.rendererMissing executable.display))

def kubecfgName : Text := "kubecfg"

def ofConfig (c : Config) (w : World) : Renderer × World :=
  let kubecfg :=
    match c.get Config.kubecfgExecutable with
    | .null => if (w.find? kubecfgName).isSome then .str kubecfgName else .null
    | v => v
  withExecutable ⟨.null, none, kubecfg⟩
    ((c.get? Config.executable).getD (.str "jsonnet")) w

def discover (w : World) : List Text :=
  ([Text.ofString "jsonnet", Text.ofString "jrsonnet", kubecfgName] : List Text).filter
    fun name => (w.find? name).isSome

def wordsOf (c : Command) : Except CommandFault (List Text) :=
  match c.program with
  | .str name => .ok (name :: c.arguments)
  | v => if v.isGiven then .error (.setting (.wordNotText v.kindName)) else .ok ([] :: c.arguments)

/-- What a run is taken for: only an exit with the code zero has an output. -/
def judge (timeout : Json) (words : List Text) : RunOutcome → Except CommandFault Rendering
  | .exited code output errors =>
    .ok (if code = 0 then ⟨output, []⟩ else ⟨[], failureReport words errors⟩)
  | .timedOut =>
    .ok ⟨[], failureReport words ("timed out after " ++ timeout.display ++ " seconds")⟩
  | .refused fault => .ok ⟨[], failureReport words fault.message⟩
  | .raised message => .error (.run message)

def runCommand (c : Config) (w : World) (command : Command) :
    Except CommandFault Rendering × World :=
  match wordsOf command with
  | .error e => (.error e, w)
  | .ok words =>
    let (outcome, w) := w.run command
    (judge (c.get Config.timeout) words outcome, w)

def isAvailable (r : Renderer) (w : World) : Bool :=
  r.path.isSome || (w.findNamed? r.executable).isSome

/-- Run the first program, with the report of the other one if that was tried and failed. -/
def renderMain (r : Renderer) (c : Config) (w : World) (file earlier : Text) :
    Except CommandFault Rendering × World :=
  match r.command c w file with
  | .error e => (.error e, w)
  | .ok command =>
    if r.isAvailable w then runCommand c w command
    else if !earlier.isEmpty then
      (.ok ⟨[], earlier⟩, w.notice (.noFallback r.executable.display))
    else
      match wordsOf command with
      | .error e => (.error e, w)
      | .ok words =>
        let detail := "could not find '" ++ r.executable.display ++ "' command on path"
        (.ok ⟨[], failureReport words detail⟩, w)

def render (r : Renderer) (c : Config) (w : World) (file : Text) :
    Except CommandFault Rendering × World :=
  if r.kubecfg.isGiven then
    match r.kubecfgCommand c w file with
    | .error e => (.error e, w)
    | .ok command =>
      match runCommand c w command with
      | (.error e, w) => (.error e, w)
      | (.ok rendering, w) =>
        if rendering.report.isEmpty && !rendering.output.isEmpty then (.ok rendering, w)
        else renderMain r c w file rendering.report
  else renderMain r c w file []

end Renderer
end JsonnetPreview
