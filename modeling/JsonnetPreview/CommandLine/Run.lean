import JsonnetPreview.CommandLine.Check
import JsonnetPreview.CommandLine.Configure
import JsonnetPreview.CommandLine.Usage
import JsonnetPreview.Config.Store
import JsonnetPreview.Source.Kind

namespace JsonnetPreview.CommandLine

inductive Exit where
  | done
  | code (n : Nat)
  | complaint (t : Text)
  | fault (f : Fault)
  deriving DecidableEq, Repr

structure LogSetup where
  level : Level
  file : Json

structure Outcome where
  exit : Exit
  output : Text := []
  errors : Text := []
  log : Option LogSetup := none
  world : World

structure Preview where
  files : List Text
  config : Config
  log : LogSetup
  world : World

def Outcome.ofComplaint (t : Text) (log : Option LogSetup) (w : World) : Outcome :=
  match w.encoding.refusal? t with
  | none => { exit := .code 1, output := asLines [t], log, world := w }
  | some e => { exit := .fault (.unencodable e), log, world := w }

inductive Plan where
  | ended (o : Outcome)
  | preview (p : Preview)

def notFound (file : Text) : Text := "Error: File not found: " ++ file

def unsupported : Text := "Error: Unsupported file type. Use .jsonnet, .libsonnet or .json"

def noFile : Text :=
  asLines
    ["Error: No source file specified.",
     "Usage: jsonnetpeek <file.jsonnet> [more.jsonnet ...]"]

def refusal? (w : World) (file : Text) : Option Text :=
  if !(w.files.lookUp w.directory file).isOk then some (notFound file)
  else if !(SourceKind.ofPath file).isSupported then some unsupported
  else none

def absolutePath (w : World) (file : Text) : Text := ((Path.ofText file).normal w.directory).toText

def logSetup (a : Arguments) (c : Config) : LogSetup :=
  if a.check then ⟨if a.verbose then .debug else .warning, .null⟩
  else ⟨if a.verbose then .debug else .info, c.get Config.logFile⟩

def runCheck (files : List Text) (c : Config) (log : LogSetup) (w : World) : Outcome :=
  let (s, fault) := Check.run c w files
  { exit :=
      match fault with
      | some f => .fault f
      | none => .code (if s.failed then 1 else 0)
    output := s.output
    errors := s.errors
    log := some log
    world := s.world }

def runFiles (a : Arguments) (files : List Text) (w : World) : Plan :=
  match Config.load w with
  | .error e => .ended { exit := .fault (.store e), world := w }
  | .ok (config, w) =>
    match a.configure config with
    | .error (.setting e) => .ended { exit := .fault (.setting e), world := w }
    | .error (.noAssignment word) =>
      let complaint := "Error: --ext-str expects KEY=VALUE, got " ++ Text.quoted word
      .ended { exit := .complaint complaint, world := w }
    | .ok config =>
      let log := logSetup a config
      if a.check then .ended (runCheck files config log w) else .preview ⟨files, config, log, w⟩

def runArguments (a : Arguments) (w : World) : Plan :=
  if a.files.isEmpty then .ended { exit := .code 1, output := noFile, world := w }
  else
    let files := a.files.map (absolutePath w)
    match files.findSome? (refusal? w) with
    | some complaint => .ended (.ofComplaint complaint none w)
    | none => runFiles a files w

def run (words : List Text) (w : World) : Plan :=
  match Arguments.ofTexts words with
  | .ok a => runArguments a w
  | .error .help => .ended { exit := .code 0, output := help, world := w }
  | .error (.wrong e) =>
    let errors := usage ++ asLines [programName ++ ": error: " ++ e.message]
    .ended { exit := .code 2, errors, world := w }

inductive Ending where
  | closed
  | interrupted
  | failed (message : Text)
  deriving DecidableEq, Repr

def Preview.finish (p : Preview) (w : World) : Ending → Outcome
  | .failed message => .ofComplaint ("Fatal Error: " ++ message) (some p.log) w
  | .closed | .interrupted => { exit := .done, log := some p.log, world := w }

end JsonnetPreview.CommandLine
