import JsonnetPreview.Panel.Markup
import JsonnetPreview.Panel.Peek
import JsonnetPreview.Panel.Popup
import JsonnetPreview.Panel.StatusBar
import JsonnetPreview.Preview.Reformat
import JsonnetPreview.Session.Basic
import JsonnetPreview.Source.Kind
import JsonnetPreview.Text.Lines
import JsonnetPreview.Text.Styled

namespace JsonnetPreview

inductive View where
  | report (text : Styled)
  | code (language code : Text)
  deriving DecidableEq, Repr

namespace View

/-- The language that a preview is shown in. Whatever is not YAML is shown as JSON. -/
def language (format : Text) (failed : Bool) : Text :=
  if failed then "text" else if format = OutputFormat.yaml.name then "yaml" else "json"

def ofPreview (text format : Text) (failed : Bool) : View :=
  if failed then .report (Styled.ofText text (some .red))
  else .code (language format failed) text

end View
structure Screen where
  session : Session
  documents : List Text
  active : Nat := 0
  title : Text := []
  source : Styled := .empty
  /-- What was last given to the pane of the preview. -/
  view : Option View := none
  /-- Whether a report is shown in place of the preview. -/
  showsReport : Bool := false
  report : Text := []
  bar : StatusBar := {}
  peek : PeekPanel := {}
  popup : Popup := {}

inductive ScreenFault where
  | session (fault : Fault)
  | markup (fault : Markup.TagFault)
  deriving DecidableEq, Repr

def ScreenFault.message : ScreenFault → Text
  | session fault => fault.message
  | markup fault => fault.message

namespace Screen

def formatOf : Json → Option Text
  | .null => none
  | v => some (if v.isGiven then v.display else [])

def statusOf (s : DocumentState) : StatusBar.Update where
  file := some (Path.ofText s.path).name
  format := formatOf s.format
  externals := some (Variables.format s.externals.toTexts)
  status := some (if s.hasErrors then "error" else "ok")
  errors := some s.errorCount

/-- Whether there is no place in a source at which a failure could be shown. -/
def isUnlocated (s : DocumentState) : Bool := s.failed && s.diagnostics.isEmpty

def showPreview (x : Screen) (s : DocumentState) : Screen :=
  let popup := if x.showsReport = isUnlocated s then x.popup else x.popup.withoutPreview
  if isUnlocated s then
    { x with popup, showsReport := true, report := Text.throughEditor s.preview }
  else
    { x with
      popup
      showsReport := false
      view := some (View.ofPreview s.preview s.format.display s.failed) }

def statusBar (bar : StatusBar) (s : DocumentState) : Except ScreenFault StatusBar :=
  let bar := bar.update (statusOf s)
  match Markup.check bar.text with
  | .ok () => .ok bar
  | .error fault => .error (.markup fault)

def setPanes (x : Screen) : Except ScreenFault Screen := do
  let s := x.session.state
  let diagnostics ← (s.diagnosticsFor x.session.world.directory none).mapError (.session ∘ .file)
  let bar ← statusBar x.bar s
  return { x.showPreview s with
    source := Source.listing s.lines diagnostics
    title := (SourceKind.ofPath s.path).label
    peek := PeekPanel.update s.lines diagnostics
    bar }

abbrev Step := Screen × Option ScreenFault

def follow (x : Screen) (session : Session) : Step :=
  let y := { x with session }
  if session.cycles = x.session.cycles then (y, none)
  else
    match y.setPanes with
    | .ok y => (y, none)
    | .error fault => (y, some fault)

/-- Go on with what an action leaves behind. What went wrong in it comes before the panes. -/
def followStep (x : Screen) : Session.Step → Step
  | (session, none) => x.follow session
  | (session, some fault) => ((x.follow session).1, some (.session fault))

def start (documents : List Text) (session : Session) : Step :=
  Screen.followStep { session, documents } session.start

def otherFormat : Json → OutputFormat
  | .str t => if t = OutputFormat.json.name then .yaml else .json
  | _ => .json

def toggleFormat (x : Screen) : Step :=
  x.followStep (x.session.setFormat (otherFormat x.session.state.format).name)

def nextDocument (x : Screen) : Step :=
  if x.documents.length < 2 then (x, none)
  else
    let active := (x.active + 1) % x.documents.length
    { x with active }.followStep (x.session.switchTo ((x.documents[active]?).getD []))

def handleEvent (x : Screen) (now : Number) (e : FileEvent) : Step :=
  x.followStep (x.session.handleEvent now e)

def openPopup (x : Screen) : Screen :=
  { x with popup := x.popup.open x.session.state.externals.toTexts }

def submit (x : Screen) : Step :=
  let externals := VariableTable.ofTexts x.popup.externals
  { x with popup := x.popup.close }.follow (x.session.setVariables externals)

def withFocus (x : Screen) (focus : Focus) : Screen := { x with popup := x.popup.withFocus focus }

def pressInPopup (x : Screen) : Key → Step
  | .letter c => ({ x with popup := x.popup.type c }, none)
  | .named c => ({ x with popup := x.popup.type c }, none)
  | .edit e => ({ x with popup := x.popup.edit e }, none)
  | .enter => x.submit
  | .escape => ({ x with popup := x.popup.close }, none)
  | .tab => (x.withFocus x.popup.focus.next, none)
  | .backTab => (x.withFocus x.popup.focus.previous, none)
  | .other => (x, none)

def pressInPanes (x : Screen) : Key → Step
  | .letter 'r' => x.follow x.session.refresh
  | .letter 'f' => x.toggleFormat
  | .letter 'o' => (x.openPopup, none)
  | .letter 't' => x.nextDocument
  | .letter 'n' => ({ x with peek := x.peek.next }, none)
  | .letter 'p' => ({ x with peek := x.peek.previous }, none)
  | .tab => (if x.popup.isOpen then x.withFocus x.popup.focus.next else x, none)
  | .backTab => (if x.popup.isOpen then x.withFocus x.popup.focus.previous else x, none)
  | _ => (x, none)

def press (x : Screen) (k : Key) : Step :=
  if x.popup.isTyping then x.pressInPopup k else x.pressInPanes k

def submitText (x : Screen) (t : Text) : Step :=
  { x with popup := x.popup.withInput t }.press .enter

def stop (x : Screen) : Screen := { x with session := x.session.stop }

end Screen
end JsonnetPreview
