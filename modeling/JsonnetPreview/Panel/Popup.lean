import JsonnetPreview.Panel.Key
import JsonnetPreview.Config.VariableTable

namespace JsonnetPreview

inductive Focus where
  | input
  | sourcePane
  | previewPane
  | nothing
  deriving DecidableEq, Repr

namespace Focus

def next : Focus → Focus
  | input | nothing => sourcePane
  | sourcePane => previewPane
  | previewPane => input

def previous : Focus → Focus
  | input => previewPane
  | previewPane => sourcePane
  | sourcePane | nothing => input

end Focus

structure Popup where
  isOpen : Bool := false
  line : LineEdit := {}
  clipboard : Text := []
  focus : Focus := .input
  deriving DecidableEq, Repr

namespace Popup

def input (p : Popup) : Text := p.line.text

def isTyping (p : Popup) : Bool := p.isOpen && p.focus = .input

def «open» (p : Popup) (externals : List (Text × Text)) : Popup :=
  { p with
    isOpen := true
    line := .selectAll (Variables.format externals)
    focus := .input }

def close (p : Popup) : Popup := { p with isOpen := false }

def type (p : Popup) (c : CodePoint) : Popup := { p with line := p.line.insert [c] }

def withInput (p : Popup) (t : Text) : Popup := { p with line := p.line.withText t }

def withFocus (p : Popup) : Focus → Popup
  | .input => { p with focus := .input, line := .selectAll p.input }
  | focus => { p with focus }

def withoutPreview (p : Popup) : Popup :=
  if p.focus = .previewPane then { p with focus := .nothing } else p

def copy (p : Popup) : Popup :=
  if p.line.hasSelection then { p with clipboard := p.line.selected } else p

def edit (p : Popup) : EditKey → Popup
  | .move m => { p with line := p.line.move m }
  | .select m => { p with line := p.line.select m }
  | .delete m => { p with line := p.line.delete m }
  | .selectAll => { p with line := .selectAll p.input }
  | .cut => { p.copy with line := p.line.insert [] }
  | .copy => p.copy
  | .paste => { p with line := p.line.insert p.clipboard }

def externals (p : Popup) : Table Text Text := Variables.parse p.input

end Popup
end JsonnetPreview
