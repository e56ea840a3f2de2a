import JsonnetPreview.Json.Error
import JsonnetPreview.Json.Printer
import JsonnetPreview.Preview.Stream
import JsonnetPreview.Text.Basic
import JsonnetPreview.Yaml.Printer

namespace JsonnetPreview

inductive Payload where
  | rendered (text : Text)
  | failure (report : Text)
  deriving DecidableEq, Repr

def Payload.isFailure : Payload → Bool
  | rendered _ => false
  | failure _ => true

/-- A renderer says that it failed by saying anything at all about it. -/
def Payload.ofOutcome (output report : Text) : Payload :=
  if report.isEmpty then rendered output else failure report

inductive OutputFormat where
  | json
  | yaml
  deriving DecidableEq, Repr

namespace OutputFormat

def name : OutputFormat → Text
  | json => "json"
  | yaml => "yaml"

def all : List OutputFormat := [json, yaml]

def ofName? (t : Text) : Option OutputFormat := all.find? (·.name = t)

theorem ofName?_name (f : OutputFormat) : ofName? f.name = some f := by
  cases f <;> rfl

def write [Stack] (v : Json) : OutputFormat → Except Json.NestedTooDeep Text
  | json => v.write? ⟨true, false⟩
  | yaml => Yaml.write? v

end OutputFormat

inductive ReformatError where
  | unsupportedFormat (name : Text)
  | malformed (m : Json.Malformed)
  | numeralTooLong (cause : NumeralTooLong)
  | nestedTooDeep (cause : Json.NestedTooDeep)
  deriving DecidableEq, Repr

def ReformatError.message : ReformatError → Text
  | unsupportedFormat name =>
    "Unsupported output format '" ++ name ++ "'. Use one of: " ++
      Text.joinWith ", " (OutputFormat.all.map OutputFormat.name)
  | malformed m => "Renderer output is not valid JSON: " ++ m.message
  | numeralTooLong cause => cause.message
  | nestedTooDeep cause => cause.message

/-- The value that was rendered. A text that begins like a stream is read as one. -/
def Payload.readRendered [Stack] (text : Text) : Except Json.ReadError Json :=
  Json.read (if Stream.separator.isPrefixOf text then Stream.join text else text)

/-- The text that shows a payload. A report is shown as it is, whatever the format. -/
def Payload.reformat [Stack] (payload : Payload) (format : Text) : Except ReformatError Text :=
  match payload with
  | .failure report => .ok report
  | .rendered text =>
    match OutputFormat.ofName? format with
    | none => .error (.unsupportedFormat format)
    | some f =>
      match Payload.readRendered text with
      | .ok v => (f.write v).mapError .nestedTooDeep
      | .error (.malformed m) => .error (.malformed m)
      | .error (.numeralTooLong cause) => .error (.numeralTooLong cause)
      | .error (.nestedTooDeep cause) => .error (.nestedTooDeep cause)

structure Cache where
  entry : Option (Text × Payload) := none
  deriving DecidableEq, Repr

namespace Cache

def empty : Cache := {}

def store (source : Text) (p : Payload) : Cache := ⟨some (source, p)⟩

def get? (c : Cache) (source : Option Text) : Option Payload :=
  match c.entry, source with
  | none, _ => none
  | some (_, p), none => some p
  | some (s, p), some source => if s = source then some p else none

theorem get?_eq_some_iff {c : Cache} {source : Text} {p : Payload} :
    c.get? (some source) = some p ↔ c.entry = some (source, p) := by
  obtain ⟨_ | ⟨s, q⟩⟩ := c
  · simp [get?]
  · simp [get?]

def reformat? [Stack] (c : Cache) (format : Text) (source : Option Text) :
    Except ReformatError (Option Text) :=
  match c.get? source with
  | none => .ok none
  | some p => (p.reformat format).map some

end Cache
end JsonnetPreview
