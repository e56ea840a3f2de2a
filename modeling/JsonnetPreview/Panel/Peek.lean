import JsonnetPreview.Source.Listing

namespace JsonnetPreview

open Report

structure PeekPanel where
  lines : List Text := []
  diagnostics : List Diagnostic := []
  index : Nat := 0
  deriving DecidableEq, Repr

namespace PeekPanel

def current (p : PeekPanel) : Option Diagnostic := p.diagnostics[p.index]?

def shown (p : PeekPanel) : Styled := Source.excerpt p.lines p.current

def update (lines : List Text) (diagnostics : List Diagnostic) : PeekPanel :=
  { lines, diagnostics, index := 0 }

def next (p : PeekPanel) : PeekPanel :=
  if p.diagnostics.isEmpty then p else { p with index := (p.index + 1) % p.diagnostics.length }

def previous (p : PeekPanel) : PeekPanel :=
  if p.diagnostics.isEmpty then p
  else { p with index := (p.index + p.diagnostics.length - 1) % p.diagnostics.length }

inductive Action where
  | update (lines : List Text) (diagnostics : List Diagnostic)
  | next
  | previous
  deriving DecidableEq, Repr

def drawn (p : PeekPanel) : PeekPanel × Option Styled := (p, some p.shown)

/-- The panel after an action, and what it is given to show. Among no diagnostics there is no step to
take, and nothing is drawn. -/
def perform (p : PeekPanel) : Action → PeekPanel × Option Styled
  | .update lines diagnostics => (update lines diagnostics).drawn
  | .next => if p.diagnostics.isEmpty then (p, none) else p.next.drawn
  | .previous => if p.diagnostics.isEmpty then (p, none) else p.previous.drawn

end PeekPanel
end JsonnetPreview
