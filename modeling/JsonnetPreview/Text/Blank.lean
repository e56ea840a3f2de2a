import JsonnetPreview.Text.Basic

namespace JsonnetPreview

def CodePoint.isBlank (c : CodePoint) : Bool :=
  let n := c.value
  (9 ≤ n && n ≤ 13) || (28 ≤ n && n ≤ 32) || n == 0x85 || n == 0xA0 || n == 0x1680 ||
    (0x2000 ≤ n && n ≤ 0x200A) || n == 0x2028 || n == 0x2029 || n == 0x202F || n == 0x205F ||
    n == 0x3000

namespace Text

def trimStartOf (p : CodePoint → Bool) (t : Text) : Text := t.dropWhile p

def trimStart (t : Text) : Text := t.dropWhile CodePoint.isBlank

def trimEnd (t : Text) : Text := (t.reverse.dropWhile CodePoint.isBlank).reverse

def trim (t : Text) : Text := trimEnd (trimStart t)

def wordsFrom : Text → Text × List Text
  | [] => ([], [])
  | c :: r =>
    let (word, rest) := wordsFrom r
    if c.isBlank then ([], if word.isEmpty then rest else word :: rest) else (c :: word, rest)

def words (t : Text) : List Text :=
  let (word, rest) := wordsFrom t
  if word.isEmpty then rest else word :: rest

theorem trimStart_cons_of_not_isBlank {c : CodePoint} {t : Text} (h : c.isBlank = false) :
    trimStart (c :: t) = c :: t := by
  simp [trimStart, h]

end Text
end JsonnetPreview
