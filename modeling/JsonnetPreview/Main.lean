import JsonnetPreview.CommandLine.Run
import JsonnetPreview.Panel.Screen

namespace JsonnetPreview.Program

def toString (t : Text) : String :=
  String.ofList (t.map fun
    | .char c => c
    | .surrogate _ => '\uFFFD')

def readNode (place : Place) : IO (Option Node) := do
  try
    return some (.file (← IO.FS.readBinFile (toString (Path.ofPlace place))).toList)
  catch
    | .inappropriateType .. => return some .directory
    | _ => return none

def putNode (files : FileTree) (place : Place) : Node → FileTree
  | .file content => files.putFile place content
  | .directory => files.makeDirectories place

/-- The places that a run may look at: the settings, each word as a file, and what would make a
directory above it the root of an app. -/
def placesOf (w : World) (words : List Text) : List Place :=
  Config.place w :: words.flatMap fun word =>
    let place := (Path.ofText word).resolve w.directory
    place :: ([] :: FileTree.wayTo place.dropLast).map (· ++ [Ksonnet.appFile])

def readFiles (w : World) (words : List Text) : IO World := do
  let mut files : FileTree := { nodes := [] }
  for place in placesOf w words do
    match ← readNode place with
    | some node => files := putNode files place node
    | none => pure ()
  return { w with files }

def notStarted : RunOutcome := .refused (.described "this program starts no renderer")

def emptyWorld : IO World := do
  let directory := Path.ofText (Text.ofString (← IO.currentDir).toString)
  let home := Path.ofText (Text.ofString ((← IO.getEnv "HOME").getD "/"))
  return { files := { nodes := [] }, directory, home, programs := [Text.ofString "jsonnet"]
           outcomes := fun _ => notStarted }

def report (o : CommandLine.Outcome) : IO UInt32 := do
  IO.print (toString o.output)
  IO.eprint (toString o.errors)
  match o.exit with
  | .done => return 0
  | .code n => return n.toUInt32
  | .complaint t =>
    IO.eprintln (toString t)
    return 1
  | .fault f =>
    IO.eprintln (toString f.message)
    return 1

def panes (x : Screen) : Text :=
  let preview : Text :=
    if x.showsReport then x.report
    else
      match x.view with
      | none => []
      | some (.report t) => t.plain
      | some (.code _ code) => code
  let popup : List Text := if x.popup.isOpen then [x.popup.input] else []
  CommandLine.asLines
    ([x.title, x.source.plain, preview, x.peek.shown.plain] ++ popup ++ [x.bar.text])

partial def interact (words : List Text) (input : IO.FS.Stream) (step : Screen.Step) :
    IO CommandLine.Ending := do
  match step with
  | (_, some f) => return .failed f.message
  | (x, none) =>
    IO.print (toString (panes x))
    let line ← input.getLine
    let key := Text.trim (Text.ofString line)
    if line.isEmpty || (key = Text.ofString "q" && !x.popup.isTyping) then return .closed
    else
      let world ← readFiles x.session.world words
      interact words input
        ({ x with session := { x.session with world } }.press (Key.ofName key))

def preview (p : CommandLine.Preview) : IO CommandLine.Ending := do
  match Session.create (p.files.headD []) p.config p.world with
  | .error f => return .failed f.message
  | .ok session => interact p.files (← IO.getStdin) (Screen.start p.files session)

def run (words : List Text) : IO UInt32 := do
  let w ← readFiles (← emptyWorld) words
  match CommandLine.run words w with
  | .ended o => report o
  | .preview p => report (p.finish p.world (← preview p))

end JsonnetPreview.Program

def main (words : List String) : IO UInt32 :=
  JsonnetPreview.Program.run (words.map JsonnetPreview.Text.ofString)
