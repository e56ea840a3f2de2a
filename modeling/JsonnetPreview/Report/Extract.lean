import JsonnetPreview.Notice
import JsonnetPreview.Report.Basic
import JsonnetPreview.Report.Diagnostic
import JsonnetPreview.Text.Blank

namespace JsonnetPreview.Report

/-- The beginning of a trace line: its indentation and its file, which a colon ends. -/
structure Frame where
  indent : Text
  file : Text
  deriving DecidableEq, Repr

namespace Frame

/-- The file is kept exactly as it was printed. A line without a colon has none, and neither has
one whose first element that is not blank is the colon. -/
def read? (line : Text) : Option Frame :=
  let indent := line.takeWhile CodePoint.isBlank
  match Text.breakAt (· = .char ':') (line.dropWhile CodePoint.isBlank) with
  | ([], _) => none
  | (_, none) => none
  | (file, some _) => some ⟨indent, file⟩

def indentedFile (f : Frame) : Text := f.indent ++ f.file

def full (f : Frame) : Text := f.indentedFile ++ [.char ':']

end Frame
structure Extraction where
  notices : List Notice
  found : DiagnosticSet
  deriving DecidableEq, Repr

inductive Finding where
  | nothing
  | odd (notice : Notice)
  | located (file : Text) (diagnostic : Diagnostic)
  deriving DecidableEq, Repr

def Extraction.add (e : Extraction) : Finding → Extraction
  | .nothing => e
  | .odd n => { e with notices := e.notices ++ [n] }
  | .located file d => { e with found := e.found.add file d }

/-- An extraction that a numeral cut short, with the notices given up to then. -/
structure Interrupted where
  notices : List Notice
  cause : NumeralTooLong
  deriving DecidableEq, Repr

def isMessageLead (c : CodePoint) : Bool :=
  c = .char ':' || c = .char ' ' || c = .char '\t'

/-- The message of a static error begins with its file and position. If nothing follows them, the
position is the message. -/
def staticFinding (message : Text) : Except NumeralTooLong Finding :=
  match Frame.read? message with
  | none => .ok (.odd (.noFileInError message))
  | some frame => do
    let located := message.drop frame.full.length
    match ← LocationRange.read? located with
    | none => return .odd (.noRangeInError message)
    | some range =>
      let said := Text.trimStartOf isMessageLead (located.drop (positionLength located))
      return .located frame.file
        { range := range.toRange, message := if said.isEmpty then Text.trim located else said }

def isFrame (line : Text) : Bool :=
  let trimmed := Text.trim line
  !trimmed.isEmpty && !phaseMark.isPrefixOf trimmed

def traceFinding (message line : Text) : Except NumeralTooLong Finding :=
  if isFrame line then
    match Frame.read? line with
    | none => .ok (.odd (.noFileInFrame line))
    | some frame => do
      match ← LocationRange.read? (line.drop frame.indentedFile.length) with
      | none => return .odd (.noRangeInFrame line)
      | some range => return .located frame.file { range := range.toRange, message }
  else .ok .nothing

def collect (finding : Text → Except NumeralTooLong Finding) :
    Extraction → List Text → Except Interrupted Extraction
  | e, [] => .ok e
  | e, line :: rest =>
    match finding line with
    | .error cause => .error ⟨e.notices, cause⟩
    | .ok f => collect finding (e.add f) rest

def extract (report : Text) : Except Interrupted Extraction :=
  match classify report with
  | .static message => collect staticFinding ⟨[], []⟩ [message]
  | .runtime message trace => collect (traceFinding message) ⟨[], []⟩ trace
  | .unrecognized _ => .ok ⟨[], []⟩

end JsonnetPreview.Report
