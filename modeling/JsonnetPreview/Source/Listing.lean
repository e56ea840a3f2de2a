import JsonnetPreview.Report.Diagnostic
import JsonnetPreview.Text.Styled

namespace JsonnetPreview.Source

open Report

structure Columns where
  first : Int
  last : Int
  deriving DecidableEq, Repr

/-- The columns of a line of a given length that a range covers. A range without extent in the line,
or behind its end, covers the last cell at or before its first column, so that it stays visible. -/
def columns? (range : Range) (line length : Int) : Option Columns :=
  let first := min (if line = range.start.line then range.start.character else 0) length
  let last := min (if line = range.stop.line then range.stop.character else length) length
  if first < last then some ⟨first, last⟩
  else
    let cell : Columns := ⟨max 0 (min first (length - 1)), min (first + 1) length⟩
    if cell.first < cell.last then some cell else none

def coverage (lengths : List Nat) (range : Range) : List (Nat × Columns) :=
  lengths.zipIdx.filterMap fun (length, line) =>
    if range.start.line ≤ line ∧ (line : Int) ≤ range.stop.line then
      (columns? range line length).map (line, ·)
    else none

def addColumns (line : Nat) (c : Columns) : List (Nat × List Columns) → List (Nat × List Columns)
  | [] => [(line, [c])]
  | (l, cs) :: rest =>
    if l = line then (l, cs ++ [c]) :: rest else (l, cs) :: addColumns line c rest

/-- The columns of each line that has some, in the order in which the diagnostics come to it. -/
def lineSpans (diagnostics : List Diagnostic) (lengths : List Nat) : List (Nat × List Columns) :=
  (diagnostics.flatMap fun d => coverage lengths d.range).foldl
    (fun m (l, c) => addColumns l c m) []

/-- The gutter of a line: a mark if the line has a diagnostic, its number, and a rule. -/
def gutter (mark : Char) (width number : Nat) : Text :=
  .char mark :: .char ' ' :: (Text.padLeft width (Text.ofNat number) ++ " │ ")

def underline (s : Styled) (spans : List Columns) : Styled :=
  spans.foldl (fun s c => s.stylize .boldRedUnderline c.first c.last) s

def numberedLine (width number : Nat) (line : Text) (spans : List Columns) : Styled :=
  let head :=
    if spans.isEmpty then Styled.empty.append (gutter ' ' width number) (some .dim)
    else Styled.empty.append (gutter '✖' width number) (some .boldRed)
  head.appendStyled (underline (Styled.ofText line none) spans)

def numberedLines (width : Nat) (spans : List (Nat × List Columns)) : Nat → List Text → List Styled
  | _, [] => []
  | number, line :: rest =>
    let shown := numberedLine width number line ((spans.lookup (number - 1)).getD [])
    (if rest.isEmpty then shown else shown.append "\n" none) ::
      numberedLines width spans (number + 1) rest

def numberWidth (lines : List Text) : Nat :=
  if lines.isEmpty then 1 else (Text.ofNat lines.length).length

def listing (lines : List Text) (diagnostics : List Diagnostic) : Styled :=
  let spans := lineSpans diagnostics (lines.map List.length)
  .concat (numberedLines (numberWidth lines) spans 1 lines)

def excerptWidth : Nat := 4

def allClear : Styled :=
  ((Styled.empty.append "OK " (some .boldGreen)).append "│ " (some .dim)).append
    "(no diagnostics for this file)" (some .dimItalic)

def appendExcerptLine (lines : List Text) (d : Diagnostic) (s : Styled) (line : Int) : Styled :=
  match line with
  | .negSucc _ => s
  | .ofNat n =>
    match lines[n]? with
    | none => s
    | some source =>
      let s :=
        if line = d.range.start.line then
          let spans := ((lineSpans [d] (lines.map List.length)).lookup n).getD []
          (s.append (gutter '►' excerptWidth (n + 1)) (some .boldYellow)).appendStyled
            (underline (Styled.ofText source (some .bold)) spans)
        else (s.append (gutter ' ' excerptWidth (n + 1)) (some .dim)).append source (some .dim)
      s.append "\n" none

/-- The message of a diagnostic over its first line and the lines next to that one. -/
def excerpt (lines : List Text) : Option Diagnostic → Styled
  | none => allClear
  | some d =>
    let line := d.range.start.line
    let head := (Styled.empty.append d.message (some .boldRed)).append "\n" none
    ([line - 1, line, line + 1].foldl (appendExcerptLine lines d) head).trimEnd

end JsonnetPreview.Source
