import JsonnetPreview.Source.Listing
import JsonnetPreview.Proofs.Source.Coverage
import JsonnetPreview.Proofs.Text.Lines
import JsonnetPreview.Proofs.Text.Numeral

namespace JsonnetPreview.Source

open Report Text

/-- A line of a listing. -/
structure Row where
  marked : Bool
  number : Nat
  source : Text
  underlined : List Columns

/-- The underline of columns in a text of a given length that begins at an offset. There is none if
they are behind the end of the text. -/
def Columns.span? (c : Columns) (offset : Int) (length : Nat) : Option Span :=
  if c.first < length then
    some ⟨offset + c.first, offset + min (length : Int) c.last, .boldRedUnderline⟩
  else none

namespace Row

def gutter (width : Nat) (r : Row) : Text :=
  Source.gutter (if r.marked then '✖' else ' ') width r.number

def text (width : Nat) (r : Row) : Text := r.gutter width ++ Styled.showable r.source

def style (r : Row) : Style := if r.marked then .boldRed else .dim

/-- The styles of a line that begins at an offset: one for its gutter, and the underlines. -/
def spans (width : Nat) (offset : Int) (r : Row) : List Span :=
  let behind := offset + (r.gutter width).length
  ⟨offset, behind, r.style⟩ ::
    r.underlined.filterMap (·.span? behind (Styled.showable r.source).length)

end Row

def rowSpans (width : Nat) : Int → List Row → List Span
  | _, [] => []
  | offset, r :: rest =>
    r.spans width offset ++ rowSpans width (offset + (r.text width).length + 1) rest

def listed (width : Nat) (offset : Int) (rs : List Row) : Styled :=
  ⟨joinWith "\n" (rs.map (Row.text width)), rowSpans width offset rs, none⟩

/-- The line of a source that has a number, as it is to be listed: marked if it has columns of a
diagnostic. -/
def row (spans : List (Nat × List Columns)) (line : Text) (i : Nat) : Row where
  marked := i ∈ Groups.keys spans
  number := i + 1
  source := line
  underlined := Groups.get spans i

def rowsFrom (spans : List (Nat × List Columns)) (first : Nat) (lines : List Text) : List Row :=
  (lines.zipIdx first).map fun (line, i) => row spans line i

/-- The lines of a source, each with what is marked in it. -/
def rows (lines : List Text) (ds : List Diagnostic) : List Row :=
  rowsFrom (lineSpans ds (lines.map List.length)) 0 lines

def gutterElements : Text := " │0123456789"

theorem mem_gutterElements_of_mem_ofNat {n : Nat} {c : CodePoint} (h : c ∈ ofNat n) :
    c ∈ gutterElements := by
  have hdigits : ∀ d < 10, CodePoint.char (Nat.digitChar d) ∈ gutterElements := by decide
  rw [← Numeral.text_ofNat] at h
  obtain ⟨d, hd, rfl⟩ := List.mem_map.1 h
  exact hdigits d (Numeral.lt_ten_of_mem_ofNat hd)

theorem mem_gutter {mark : Char} {width number : Nat} {c : CodePoint}
    (h : c ∈ gutter mark width number) : c = .char mark ∨ c ∈ gutterElements := by
  have hblank : .char ' ' ∈ gutterElements := by decide
  have hrule : ∀ c ∈ ofString " │ ", c ∈ gutterElements := by decide
  rw [gutter, padLeft, replicate] at h
  rcases List.mem_cons.1 h with h | h
  · exact .inl h
  right
  rcases List.mem_cons.1 h with rfl | h
  · exact hblank
  rcases List.mem_append.1 h with h | h
  · rcases List.mem_append.1 h with h | h
    · exact List.eq_of_mem_replicate h ▸ hblank
    · exact mem_gutterElements_of_mem_ofNat h
  · exact hrule c h

namespace Row

variable {width : Nat} {r : Row}

theorem forall_mem_gutter {p : CodePoint → Prop} (hmark : p '✖')
    (helements : ∀ c ∈ gutterElements, p c) : ∀ c ∈ r.gutter width, p c := by
  intro c hc
  rcases mem_gutter hc with rfl | hc
  · split
    · exact hmark
    · exact helements _ (by decide)
  · exact helements c hc

theorem showable_gutter : Styled.showable (r.gutter width) = r.gutter width :=
  List.filter_eq_self.2 (forall_mem_gutter (by decide) (by decide))

theorem isLine_gutter : IsLine (r.gutter width) := forall_mem_gutter (by decide) (by decide)

theorem gutter_ne_nil : r.gutter width ≠ [] := List.cons_ne_nil _ _

theorem isLine_text (h : IsLine r.source) : IsLine (r.text width) :=
  isLine_append.2 ⟨isLine_gutter, fun c hc => h c (List.mem_of_mem_filter hc)⟩

theorem text_ne_nil : r.text width ≠ [] := List.append_ne_nil_of_left_ne_nil gutter_ne_nil _

end Row

theorem stylize_eq (s : Styled) {c : Columns} (h : c.IsProper) :
    s.stylize .boldRedUnderline c.first c.last =
      { s with spans := s.spans ++ (c.span? 0 s.plain.length).toList } := by
  obtain ⟨hfirst, hlt⟩ := h
  have hstart : ¬ c.first < 0 := by omega
  have hstop : ¬ c.last < 0 := by omega
  simp only [Styled.stylize, if_neg hstart, if_neg hstop, Columns.span?]
  by_cases hlength : c.first < s.plain.length
  · simp [hlength, Int.not_le.2 hlength, Int.not_le.2 hlt]
  · simp [hlength, Int.not_lt.1 hlength]

theorem underline_eq (s : Styled) {cs : List Columns} (h : ∀ c ∈ cs, c.IsProper) : underline s cs =
      { s with spans := s.spans ++ cs.filterMap (·.span? 0 s.plain.length) } := by
  induction cs generalizing s with
  | nil => simp [underline]
  | cons c cs ih =>
      obtain ⟨hc, hcs⟩ := List.forall_mem_cons.1 h
      have hstep : underline s (c :: cs) =
          underline (s.stylize .boldRedUnderline c.first c.last) cs := rfl
      rw [hstep, ih _ hcs, stylize_eq s hc]
      cases hspan : c.span? 0 s.plain.length <;> simp [hspan]

def Row.styled (width : Nat) (r : Row) : Styled := ⟨r.text width, r.spans width 0, none⟩

theorem shift_of_span? {c : Columns} (offset n : Int) (length : Nat) :
    (c.span? offset length).map (·.shift n) = c.span? (n + offset) length := by
  rw [Columns.span?, Columns.span?]
  split
  · simp only [Option.map_some, Span.shift]
    congr 2 <;> omega
  · rfl

theorem map_shift_filterMap_span? (cs : List Columns) (offset n : Int) (length : Nat) :
    (cs.filterMap (·.span? offset length)).map (·.shift n) =
      cs.filterMap (·.span? (n + offset) length) := by
  rw [List.map_filterMap]
  simp only [shift_of_span?]

theorem Row.spansAt_styled (width : Nat) (r : Row) (offset : Int) :
    (r.styled width).spansAt offset = r.spans width offset := by
  show [] ++ (r.spans width 0).map (·.shift offset) = _
  rw [List.nil_append, Row.spans, List.map_cons, map_shift_filterMap_span?, Row.spans]
  simp [Span.shift, Int.add_comm]

theorem Row.append_gutter (width : Nat) (r : Row) :
    Styled.empty.append (r.gutter width) (some r.style) =
      ⟨r.gutter width, [⟨0, (r.gutter width).length, r.style⟩], none⟩ := by
  rw [Styled.append, if_neg (by simpa using gutter_ne_nil)]
  simp [Styled.empty, showable_gutter]

theorem numberedLine_eq (width number : Nat) (line : Text) {cs : List Columns}
    (h : ∀ c ∈ cs, c.IsProper) :
    numberedLine width number line cs = Row.styled width ⟨!cs.isEmpty, number, line, cs⟩ := by
  have hhead : numberedLine width number line cs =
      (Styled.empty.append (Row.gutter width ⟨!cs.isEmpty, number, line, cs⟩)
        (some (Row.style ⟨!cs.isEmpty, number, line, cs⟩))).appendStyled
          (underline (Styled.ofText line none) cs) := by
    cases cs <;> rfl
  rw [hhead, Row.append_gutter, underline_eq _ h, Styled.appendStyled, Styled.spansAt]
  simp only [Styled.ofText, List.nil_append, map_shift_filterMap_span?, Row.styled, Row.text,
    Row.spans, Int.add_zero, Int.zero_add]
  rfl

theorem Row.append_newline (width : Nat) (r : Row) : (r.styled width).append "\n" none =
    ⟨r.text width ++ [.char '\n'], r.spans width 0, none⟩ := by
  have hshowable : Styled.showable "\n" = [.char '\n'] := by decide
  rw [Styled.append, if_neg (by decide), hshowable]
  simp [Row.styled]

theorem rowsFrom_cons (spans : List (Nat × List Columns)) (i : Nat) (line : Text)
    (lines : List Text) :
    rowsFrom spans i (line :: lines) = row spans line i :: rowsFrom spans (i + 1) lines := rfl

variable {spans : List (Nat × List Columns)}

theorem numberedLine_get (hspans : Groups.WellFormed spans) (width : Nat) (line : Text) {i : Nat}
    (h : ∀ c ∈ Groups.get spans i, c.IsProper) :
    numberedLine width (i + 1) line (Groups.get spans i) = (row spans line i).styled width := by
  have hmarked : (!(Groups.get spans i).isEmpty) = decide (i ∈ Groups.keys spans) := by
    rw [Bool.eq_iff_iff]
    simp [hspans.mem_keys_iff]
  rw [numberedLine_eq width (i + 1) line h, hmarked]
  rfl

theorem concatAt_numberedLines (hspans : Groups.WellFormed spans)
    (h : ∀ i, ∀ c ∈ Groups.get spans i, c.IsProper) (width : Nat) (offset : Int) (i : Nat)
    (lines : List Text) :
    Styled.concatAt offset (numberedLines width spans (i + 1) lines) =
      listed width offset (rowsFrom spans i lines) := by
  induction lines generalizing offset i with
  | nil => rfl
  | cons line lines ih =>
      have hrow := numberedLine_get hspans width line (h i)
      rw [rowsFrom_cons, listed, List.map_cons, rowSpans]
      cases lines with
      | nil =>
          have hparts : numberedLines width spans (i + 1) [line] =
              [(row spans line i).styled width] := by
            rw [← hrow]
            rfl
          rw [hparts, Styled.concatAt, Row.spansAt_styled]
          simp [Styled.concatAt, Styled.empty, rowsFrom, rowSpans, joinWith, Row.styled]
      | cons next lines =>
          have hparts : numberedLines width spans (i + 1) (line :: next :: lines) =
              ((row spans line i).styled width).append "\n" none ::
                numberedLines width spans (i + 1 + 1) (next :: lines) := by
            rw [← hrow]
            rfl
          have hspansAt : Styled.spansAt ⟨(row spans line i).text width ++ [.char '\n'],
              (row spans line i).spans width 0, none⟩ offset =
                (row spans line i).spans width offset :=
            Row.spansAt_styled width (row spans line i) offset
          rw [hparts, Row.append_newline, Styled.concatAt, ih, hspansAt, listed, rowsFrom_cons,
            List.map_cons, joinWith_cons_cons, List.length_append, List.length_singleton,
            List.append_assoc, Int.natCast_add, ← Int.add_assoc]
          rfl

theorem source_mem_of_mem_rowsFrom {i : Nat} {lines : List Text} {r : Row}
    (h : r ∈ rowsFrom spans i lines) : r.source ∈ lines := by
  obtain ⟨⟨line, j⟩, hmem, rfl⟩ := List.mem_map.1 h
  exact List.fst_mem_of_mem_zipIdx hmem

/-- Each diagnostic is marked where it is. A listing has one line for each line of the source, with
a mark on those that have a part of a diagnostic and no mark on the others. -/
theorem listing_marks {ds : List Diagnostic} (h : ∀ d ∈ ds, d.range.IsProper) :
    (∀ lengths, MarksEach ds lengths (lineSpans ds lengths)) ∧
    ∀ lines : List Text,
      listing lines ds = listed (numberWidth lines) 0 (rows lines ds) ∧
      ((∀ line ∈ lines, IsLine line) →
        (listing lines ds).plain.lines = (rows lines ds).map (Row.text (numberWidth lines))) := by
  refine ⟨marksEach_lineSpans h, fun lines => ?_⟩
  have hmarks := marksEach_lineSpans h (lines.map List.length)
  have hproper (i : Nat) := isProper_of_marks (hmarks.marks i)
  have hlisting : listing lines ds = listed (numberWidth lines) 0 (rows lines ds) :=
    concatAt_numberedLines hmarks.wellFormed hproper (numberWidth lines) 0 0 lines
  refine ⟨hlisting, fun hlines => ?_⟩
  rw [hlisting]
  apply lines_joinWith
  intro l hl
  obtain ⟨r, hr, rfl⟩ := List.mem_map.1 hl
  exact ⟨Row.isLine_text (hlines _ (source_mem_of_mem_rowsFrom hr)), Row.text_ne_nil⟩

def spreadDiagnostics : List Diagnostic :=
  [{ range := ⟨⟨0, 4⟩, ⟨2, 2⟩⟩, message := "expected a comma" },
   { range := ⟨⟨2, 7⟩, ⟨2, 9⟩⟩, message := "unexpected end" }]

theorem isProper_spreadDiagnostics : ∀ d ∈ spreadDiagnostics, d.range.IsProper := by
  simp only [spreadDiagnostics, List.forall_mem_cons]
  exact ⟨⟨by decide, by decide, by decide, .inl (by decide)⟩,
    ⟨by decide, by decide, by decide, .inr ⟨rfl, by decide⟩⟩, List.forall_mem_nil _⟩

theorem listing_marks_spreadDiagnostics :
    (∀ d ∈ spreadDiagnostics, d.range.IsProper) ∧
    MarksEach spreadDiagnostics [6, 0, 3] [(0, [⟨4, 6⟩]), (2, [⟨0, 2⟩, ⟨2, 3⟩])] ∧
    (listing ["abcdef", "", "abc"] spreadDiagnostics).plain.lines =
      ["✖ 1 │ abcdef", "  2 │ ", "✖ 3 │ abc"] := by
  obtain ⟨hmarks, hlisting⟩ := listing_marks isProper_spreadDiagnostics
  have hspans : lineSpans spreadDiagnostics [6, 0, 3] =
      [(0, [⟨4, 6⟩]), (2, [⟨0, 2⟩, ⟨2, 3⟩])] := by decide
  refine ⟨isProper_spreadDiagnostics, hspans ▸ hmarks [6, 0, 3], ?_⟩
  rw [(hlisting ["abcdef", "", "abc"]).2 (by decide)]
  decide

end JsonnetPreview.Source
