import JsonnetPreview.Text.Lines
import JsonnetPreview.Text.Quoted

namespace JsonnetPreview

inductive Report where
  /-- A single located failure, without a trace. -/
  | static (message : Text)
  /-- A failed evaluation and the lines of its trace. -/
  | runtime (message : Text) (trace : List Text)
  /-- The line that says neither; empty if there is no such line. -/
  | unrecognized (line : Text)
  deriving DecidableEq, Repr

namespace Report

def staticMark : Text := "STATIC ERROR: "

def runtimeMark : Text := "RUNTIME ERROR: "

def phaseMark : Text := "During manifestation"

/-- What the line under the banner says, and what follows it. -/
def ofLine (line : Text) (trace : List Text) : Report :=
  match staticMark.isPrefixOf? line, runtimeMark.isPrefixOf? line with
  | some message, _ => .static message
  | none, some message => .runtime message trace
  | none, none => .unrecognized line

def classify (report : Text) : Report :=
  match report.lines with
  | _ :: line :: trace => ofLine line trace
  | _ => .unrecognized []

theorem classify_of_lines {report first line : Text} {trace : List Text}
    (h : report.lines = first :: line :: trace) : classify report = ofLine line trace := by
  rw [classify, h]

end Report
def banner (command : List Text) : Text := "Command failed: " ++ Text.commandLine command

def failureReport (command : List Text) (detail : Text) : Text :=
  banner command ++ .char '\n' :: detail

end JsonnetPreview
