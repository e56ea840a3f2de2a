import JsonnetPreview.Preview.Reformat
import JsonnetPreview.Renderer.Run
import JsonnetPreview.Report.Extract
import JsonnetPreview.Session.State

namespace JsonnetPreview

open Report

/-- What is told at the end of a cycle: what went wrong in it if something did, the state that is
shown, and the payload that is kept. -/
structure Update where
  fault : Option Fault
  state : DocumentState
  cache : Cache

structure Session where
  config : Config
  renderer : Renderer
  cache : Cache := Cache.empty
  state : DocumentState
  watcher : Watcher := {}
  world : World
  /-- How often the time has been read. -/
  clock : Nat := 0
  /-- What was told at the end of each cycle, in order. -/
  updates : List Update := []

/-- What a payload shows in a format. -/
structure Shown where
  report : Text
  diagnostics : DiagnosticSet
  preview : Text
  failed : Bool

namespace Shown

def ofReport (report : Text) : Except Fault Shown × List Notice :=
  match extract report with
  | .ok e => (.ok ⟨report, e.found, report, true⟩, e.notices)
  | .error e => (.error (.numeralTooLong e.cause), e.notices)

def ofPayload (format : Text) : Payload → Except Fault Shown × List Notice
  | .failure report => ofReport report
  | .rendered text =>
    match (Payload.rendered text).reformat format with
    | .ok preview => (.ok ⟨[], [], preview, false⟩, [])
    | .error e => (.error (.reformat e), [])

end Shown

namespace Session

def cycles (s : Session) : Nat := s.updates.length

def create (path : Text) (config : Config) (w : World) : Except Fault Session :=
  let (renderer, world) := Renderer.ofConfig config w
  match config.externalVariables with
  | .error e => .error (.setting e)
  | .ok externals =>
    let format := (config.get? Config.outputFormat).getD (.str "json")
    .ok { config, renderer, world, state := { path, format, externals } }

def «open» (path : Text) (w : World) : Except Fault Session :=
  match Config.load w with
  | .error e => .error (.store e)
  | .ok (config, w) => create path config w

def internalErrorMark : Text := "Internal Engine Error: "

def showPayload (s : Session) (shown : Shown) : Session :=
  { s with
    clock := s.clock + 1
    state := { s.state with
      report := shown.report
      diagnostics := shown.diagnostics
      preview := shown.preview
      failed := shown.failed
      lastUpdate := s.clock + 1 } }

def showFault (s : Session) (fault : Fault) : Session :=
  let report := internalErrorMark ++ fault.message
  { s with
    world := s.world.notice (.refreshFailed s.state.path)
    state := { s.state with report, diagnostics := [], preview := report, failed := true } }

def tell (s : Session) (fault : Option Fault) : Session :=
  { s with updates := s.updates ++ [⟨fault, s.state, s.cache⟩] }

def endCycle (s : Session) : Except Fault Shown → Session
  | .ok shown => (s.showPayload shown).tell none
  | .error fault => (s.showFault fault).tell (some fault)

def applyPayload (s : Session) (p : Payload) : Session :=
  let (r, notices) := Shown.ofPayload s.state.format.display p
  { s with world := s.world.noticeAll notices }.endCycle r

def readSource (s : Session) : Except Fault Text :=
  match s.world.files.read s.world.directory s.state.path with
  | .error e => .error (.file e)
  | .ok content =>
    match Octets.text content with
    | .ok text => .ok text
    | .error e => .error (.undecodable e)

def renderDocument (s : Session) : Session :=
  match s.renderer.render s.config s.world s.state.path with
  | (.error e, world) => { s with world }.endCycle (.error (.ofCommand e))
  | (.ok r, world) =>
    let p := Payload.ofOutcome r.output r.report
    { s with world, cache := Cache.store s.state.path p }.applyPayload p

def refresh (s : Session) : Session :=
  match s.readSource with
  | .error e => s.endCycle (.error e)
  | .ok text => { s with state := s.state.withSource text }.renderDocument

def select (s : Session) (path : Text) : Session :=
  { s with cache := Cache.empty, state := { s.state with path } }

def watch (s : Session) : Except Fault Session :=
  match s.watcher.watch s.world.files s.world.directory s.state.path with
  | .ok watcher => .ok { s with watcher }
  | .error e => .error (.watch e)

/-- What an action leaves behind, and what went wrong in it if something did. -/
abbrev Step := Session × Option Fault

/-- The watch cannot follow a document that is not there. -/
def follow (s : Session) : Step :=
  match s.watch with
  | .ok s => (s, none)
  | .error e => (s, some e)

def start (s : Session) : Step := s.refresh.follow

def stop (s : Session) : Session := { s with watcher := s.watcher.stop }

def switchTo (s : Session) (path : Text) : Step :=
  let s := (s.select path).refresh
  if s.watcher.active.isSome then s.follow else (s, none)

def overrideVariables (s : Session) (externals : VariableTable) : Session :=
  { s with config := s.config.withVariables externals }

def setVariables (s : Session) (externals : VariableTable) : Session :=
  let s := s.overrideVariables externals
  { s with state := { s.state with externals } }.refresh

/-- Show the preview in another format. A payload that is there is not rendered again. -/
def setFormat (s : Session) (name : Text) : Step :=
  match OutputFormat.ofName? name with
  | none => (s, some (.unsupportedFormat name))
  | some _ =>
    let s := { s with state := { s.state with format := .str name } }
    match s.cache.get? (some s.state.path) with
    | some p => (s.applyPayload p, none)
    | none => (s.refresh, none)

def refreshTimes (s : Session) : Nat → Session
  | 0 => s
  | n + 1 => s.refresh.refreshTimes n

def handleEvent (s : Session) (now : Number) (e : FileEvent) : Step :=
  match s.watcher.dispatch s.world.directory now e with
  | .ok (reports, watcher) => ({ s with watcher }.refreshTimes reports, none)
  | .error fault => (s, some (.watch fault))

end Session
end JsonnetPreview
