import JsonnetPreview.Report.Location

namespace JsonnetPreview.Report

inductive Severity where
  | error
  deriving DecidableEq, Repr

def Severity.name : Severity → Text
  | error => "error"

structure Diagnostic where
  range : Range
  message : Text
  severity : Severity := .error
  deriving DecidableEq, Repr

/-- Files as the compiler prints them, in the order in which they first occur, each with its
diagnostics in the order in which they occur. -/
abbrev DiagnosticSet := List (Text × List Diagnostic)

namespace DiagnosticSet

def add (file : Text) (d : Diagnostic) : DiagnosticSet → DiagnosticSet
  | [] => [(file, [d])]
  | (f, ds) :: rest => if f = file then (f, ds ++ [d]) :: rest else (f, ds) :: add file d rest

def count : DiagnosticSet → Nat
  | [] => 0
  | (_, ds) :: rest => ds.length + count rest

def get (s : DiagnosticSet) (file : Text) : List Diagnostic := (s.lookup file).getD []

theorem count_add (file : Text) (d : Diagnostic) (s : DiagnosticSet) :
    count (add file d s) = count s + 1 := by
  induction s with
  | nil => rfl
  | cons entry rest ih =>
    obtain ⟨f, ds⟩ := entry
    by_cases h : f = file
    · simp [add, h, count]
      omega
    · simp [add, h, count, ih]
      omega

end DiagnosticSet

/-- `file:line:column: severity: message`, with line and column counted from one as the compiler
counts them. -/
def Diagnostic.line (file : Text) (d : Diagnostic) : Text :=
  Text.joinWith ":"
    [file, Text.ofInt (d.range.start.line + 1), Text.ofInt (d.range.start.character + 1),
      .char ' ' :: d.severity.name, .char ' ' :: d.message]

end JsonnetPreview.Report
