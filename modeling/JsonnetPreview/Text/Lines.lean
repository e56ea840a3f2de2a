import JsonnetPreview.Text.Basic

namespace JsonnetPreview

/-- Line feed, vertical tab, form feed, carriage return, the three information separators, next
line, and the line and paragraph separators. -/
def CodePoint.isLineBreak (c : CodePoint) : Bool :=
  let n := c.value
  (10 ≤ n && n ≤ 13) || (28 ≤ n && n ≤ 30) || n == 0x85 || n == 0x2028 || n == 0x2029

namespace Text

def extendFirst (c : CodePoint) : List Text → List Text
  | [] => [[c]]
  | line :: rest => (c :: line) :: rest

/-- The lines of a text, without their line breaks. A break at the very end opens no line. -/
def lines : Text → List Text
  | [] => []
  | .char '\r' :: .char '\n' :: r => [] :: lines r
  | c :: r => if c.isLineBreak then [] :: lines r else extendFirst c (lines r)

def linesWithBreaks : Text → List Text
  | [] => []
  | .char '\r' :: .char '\n' :: r => [.char '\r', .char '\n'] :: linesWithBreaks r
  | c :: r =>
    if c.isLineBreak then [c] :: linesWithBreaks r else extendFirst c (linesWithBreaks r)

/-- A carriage return, alone or before a line feed, becomes a line feed. -/
def unifyNewlines : Text → Text
  | [] => []
  | .char '\r' :: .char '\n' :: r => .char '\n' :: unifyNewlines r
  | .char '\r' :: r => .char '\n' :: unifyNewlines r
  | c :: r => c :: unifyNewlines r

theorem lines_cons_of_not_isLineBreak {c : CodePoint} (h : c.isLineBreak = false) (r : Text) :
    lines (c :: r) = extendFirst c (lines r) := by
  rw [lines.eq_3]
  · simp [h]
  · rintro r' rfl
    simp [CodePoint.isLineBreak, CodePoint.value] at h

theorem lines_of_forall_not_isLineBreak {t : Text} (ht : t ≠ [])
    (h : ∀ c ∈ t, c.isLineBreak = false) : lines t = [t] := by
  induction t with
  | nil => exact absurd rfl ht
  | cons c r ih =>
    rw [lines_cons_of_not_isLineBreak (h c (by simp))]
    cases r with
    | nil => rfl
    | cons d r =>
      rw [ih (by simp) (fun x hx => h x (by simp [hx]))]
      rfl

def hasWideBreak : Text → Bool
  | .char '\r' :: .char '\n' :: _ => true
  | _ :: r => hasWideBreak r
  | [] => false

def lineEnd (t : Text) : Text :=
  if hasWideBreak t then "\r\n"
  else if t.contains (.char '\n') then "\n"
  else if t.contains (.char '\r') then "\r"
  else "\n"

def editorLines (t : Text) : List Text :=
  match t.getLast? with
  | none | some (.char '\n') | some (.char '\r') => lines t ++ [[]]
  | _ => lines t

def throughEditor (t : Text) : Text := joinWith (lineEnd t) (editorLines t)

end Text
end JsonnetPreview
