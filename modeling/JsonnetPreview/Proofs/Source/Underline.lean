import JsonnetPreview.Proofs.Source.Listing
import JsonnetPreview.Proofs.Text.Styled

namespace JsonnetPreview

namespace Source

open Report Text

/-- A part of a line that is marked for a diagnostic. -/
structure Mark where
  line : Nat
  source : Text
  columns : Columns

def marks (lines : List Text) (ds : List Diagnostic) : List Mark :=
  lines.zipIdx.flatMap fun (source, line) =>
    (Groups.get (lineSpans ds (lines.map List.length)) line).map (⟨line, source, ·⟩)

def Columns.part? (c : Columns) (t : Text) : Option Text :=
  if c.first < t.length then some (t.slice c.first c.last) else none

namespace Mark

/-- What is marked, as it is shown. -/
def meant (m : Mark) : Text := Styled.showable (m.source.slice m.columns.first m.columns.last)

/-- What has the place of the columns in the line as it is shown. -/
def part? (m : Mark) : Option Text := m.columns.part? (Styled.showable m.source)

end Mark

def Row.underlines (r : Row) (start : Int) : List Span :=
  r.underlined.filterMap (·.span? start (Styled.showable r.source).length)

def Row.parts (r : Row) : List Text := r.underlined.filterMap (·.part? (Styled.showable r.source))

def placed (width : Nat) (before : Text) : List Row → List (Text × Row)
  | [] => []
  | r :: rest =>
    (before ++ r.gutter width, r) ::
      placed width (before ++ (r.text width ++ [CodePoint.char '\n'])) rest

theorem filter_filterMap_span? (cs : List Columns) (offset : Int) (length : Nat) :
    (cs.filterMap (·.span? offset length)).filter (·.style = .boldRedUnderline) =
      cs.filterMap (·.span? offset length) := by
  refine List.filter_eq_self.2 fun x hx => ?_
  obtain ⟨c, -, hc⟩ := List.mem_filterMap.1 hx
  rw [Columns.span?] at hc
  split at hc
  · exact Option.some.inj hc ▸ rfl
  · cases hc

theorem filter_spans (width : Nat) (offset : Int) (r : Row) :
    (r.spans width offset).filter (·.style = .boldRedUnderline) =
      r.underlines (offset + (r.gutter width).length) := by
  have hstyle : r.style ≠ .boldRedUnderline := by
    rw [Row.style]
    split <;> decide
  rw [Row.spans, List.filter_cons_of_neg (by simpa using hstyle), filter_filterMap_span?,
    Row.underlines]

theorem filter_rowSpans (width : Nat) (before : Text) (rs : List Row) :
    (rowSpans width before.length rs).filter (·.style = .boldRedUnderline) =
      (placed width before rs).flatMap fun x => x.2.underlines x.1.length := by
  induction rs generalizing before with
  | nil => rfl
  | cons r rs ih =>
      have hbehind : (before.length : Int) + (r.text width).length + 1 =
          (before ++ (r.text width ++ [CodePoint.char '\n'])).length := by
        simp [Int.add_assoc]
      rw [rowSpans, List.filter_append, filter_spans, hbehind, ih, placed, List.flatMap_cons]
      simp

theorem exists_behind {width : Nat} {before : Text} {rs : List Row} {b : Text} {r : Row}
    (h : (b, r) ∈ placed width before rs) :
    ∃ behind, before ++ joinWith "\n" (rs.map (Row.text width)) =
      b ++ (Styled.showable r.source ++ behind) := by
  induction rs generalizing before with
  | nil => cases h
  | cons r' rs ih =>
      rcases List.mem_cons.1 h with h | h
      · obtain ⟨rfl, rfl⟩ := Prod.mk.inj h
        cases rs with
        | nil => exact ⟨[], by simp [joinWith, Row.text]⟩
        | cons next rs =>
            refine ⟨.char '\n' :: joinWith "\n" ((next :: rs).map (Row.text width)), ?_⟩
            rw [List.map_cons, List.map_cons, joinWith_cons_cons, Row.text]
            simp
      · cases rs with
        | nil => cases h
        | cons next rs =>
            obtain ⟨behind, hbehind⟩ := ih h
            refine ⟨behind, ?_⟩
            rw [← hbehind, List.map_cons, List.map_cons, joinWith_cons_cons]
            simp

theorem map_snd_placed (width : Nat) (before : Text) (rs : List Row) :
    (placed width before rs).map Prod.snd = rs := by
  induction rs generalizing before with
  | nil => rfl
  | cons r rs ih => rw [placed, List.map_cons, ih]

variable {t u b behind : Text} {cs : List Columns}

theorem map_slice_span? (ht : t = b ++ (u ++ behind)) {c : Columns} (hc : c.IsProper) :
    (c.span? b.length u.length).map (fun x => t.slice x.start x.stop) = c.part? u := by
  obtain ⟨hfirst, hlt⟩ := hc
  rw [Columns.span?, Columns.part?]
  split
  · rw [Option.map_some, ht, slice_within b u behind hfirst (by omega)]
  · rfl

theorem map_slice_filterMap_span? (ht : t = b ++ (u ++ behind)) (h : ∀ c ∈ cs, c.IsProper) :
    (cs.filterMap (·.span? b.length u.length)).map (fun x => t.slice x.start x.stop) =
      cs.filterMap (·.part? u) := by
  rw [List.map_filterMap]
  exact List.filterMap_congr fun c hc => map_slice_span? ht (h c hc)

variable {width : Nat} {rs : List Row}

theorem underlines_listed (h : ∀ r ∈ rs, ∀ c ∈ r.underlined, c.IsProper) :
    (listed width 0 rs).underlines.map (listed width 0 rs).under =
      rs.flatMap Row.parts := by
  have hunderlines : (listed width 0 rs).underlines =
      (placed width [] rs).flatMap fun x => x.2.underlines x.1.length :=
    filter_rowSpans width [] rs
  have hrows : rs.flatMap Row.parts = (placed width [] rs).flatMap fun x => x.2.parts := by
    conv_lhs => rw [← map_snd_placed width [] rs, List.flatMap_map]
  rw [hunderlines, List.map_flatMap, hrows]
  refine List.flatMap_congr fun x hx => ?_
  obtain ⟨behind, hplain⟩ := exists_behind hx
  have hr : x.2 ∈ rs := map_snd_placed width [] rs ▸ List.mem_map_of_mem hx
  exact map_slice_filterMap_span? hplain (h x.2 hr)

theorem lineOf_of_mem_underlines {s : Styled} (hs : s.plain = b ++ (u ++ behind)) (hu : IsLine u)
    (hcs : ∀ c ∈ cs, c.IsProper) {x : Span} (hx : x ∈ cs.filterMap (·.span? b.length u.length)) :
    s.lineOf x = b.count (.char '\n') := by
  obtain ⟨c, hc, hspan⟩ := List.mem_filterMap.1 hx
  obtain ⟨hfirst, -⟩ := hcs c hc
  rw [Columns.span?] at hspan
  split at hspan
  next hlt =>
    obtain rfl := Option.some.inj hspan
    have hstart : ((b.length : Int) + c.first).toNat = b.length + c.first.toNat := by omega
    have hle : c.first.toNat ≤ u.length := by omega
    rw [Styled.lineOf, hs, hstart, List.take_length_add_append, List.take_append_of_le_length hle,
      List.count_append, count_newline fun e he => hu e (List.mem_of_mem_take he)]
    rfl
  next => cases hspan

theorem number_of_mem_placed {spans : List (Nat × List Columns)} {lines : List Text}
    (h : ∀ l ∈ lines, IsLine l) {before : Text} {i : Nat} (hi : before.count (.char '\n') = i)
    {x : Text × Row} (hx : x ∈ placed width before (rowsFrom spans i lines)) :
    x.2.number = x.1.count (.char '\n') + 1 := by
  induction lines generalizing before i with
  | nil => cases hx
  | cons line lines ih =>
      obtain ⟨hline, hlines⟩ := List.forall_mem_cons.1 h
      rw [rowsFrom_cons, placed] at hx
      rcases List.mem_cons.1 hx with rfl | hx
      · rw [List.count_append, count_newline Row.isLine_gutter, hi]
        rfl
      · refine ih hlines ?_ hx
        rw [List.count_append, List.count_append, count_newline (Row.isLine_text hline), hi,
          Nat.zero_add]
        rfl

theorem map_under_of_line {s : Styled} {r : Row}
    (hs : s.plain = b ++ (Styled.showable r.source ++ behind)) (hsource : IsLine r.source)
    (hr : ∀ c ∈ r.underlined, c.IsProper) (hnumber : r.number = b.count (.char '\n') + 1)
    {n : Nat} : ((r.underlines b.length).filter (s.lineOf · = n)).map s.under =
      if r.number = n + 1 then r.parts else [] := by
  have hshown : IsLine (Styled.showable r.source) := fun c hc =>
    hsource c (List.mem_of_mem_filter hc)
  have hline : ∀ x ∈ r.underlines b.length, s.lineOf x = b.count (.char '\n') :=
    fun x hx => lineOf_of_mem_underlines hs hshown hr hx
  rw [hnumber]
  split
  next hn =>
    rw [List.filter_eq_self.2 fun x hx => by simpa [hline x hx] using hn]
    exact map_slice_filterMap_span? hs hr
  next hn =>
    rw [List.filter_eq_nil_iff.2 fun x hx => by simpa [hline x hx] using hn]
    rfl

variable {lines : List Text} {ds : List Diagnostic}

theorem rows_eq (lines : List Text) (ds : List Diagnostic) : rows lines ds =
    lines.zipIdx.map fun (line, i) => row (lineSpans ds (lines.map List.length)) line i := rfl

theorem flatMap_rows (lines : List Text) (ds : List Diagnostic) :
    (rows lines ds).flatMap Row.parts = (marks lines ds).filterMap Mark.part? := by
  rw [rows_eq, marks, List.flatMap_map, List.filterMap_flatMap]
  refine List.flatMap_congr fun x _ => ?_
  rw [List.filterMap_map]
  rfl

theorem mark_of_mem {m : Mark} (h : m ∈ marks lines ds) : lines[m.line]? = some m.source ∧
    m.columns ∈ Groups.get (lineSpans ds (lines.map List.length)) m.line := by
  obtain ⟨⟨source, line⟩, hline, hm⟩ := List.mem_flatMap.1 h
  obtain ⟨c, hc, rfl⟩ := List.mem_map.1 hm
  exact ⟨List.mem_zipIdx_iff_getElem?.1 hline, hc⟩

theorem map_marks (lines : List Text) (ds : List Diagnostic) :
    ((marks lines ds).map fun m => (m.line, m.columns)) =
      (List.range lines.length).flatMap fun i =>
        (Groups.get (lineSpans ds (lines.map List.length)) i).map (i, ·) := by
  have hlines : List.range lines.length = lines.zipIdx.map Prod.snd := by
    rw [List.zipIdx_map_snd, List.range_eq_range']
  rw [marks, List.map_flatMap, hlines, List.flatMap_map]
  refine List.flatMap_congr fun x _ => ?_
  rw [List.map_map]
  rfl

theorem perm_marks (h : ∀ d ∈ ds, d.range.IsProper) (lines : List Text) :
    ((marks lines ds).map fun m => (m.line, m.columns)).Perm
      (Groups.entries (lineSpans ds (lines.map List.length))) := by
  have hmarks := marksEach_lineSpans h (lines.map List.length)
  rw [map_marks]
  refine hmarks.wellFormed.perm_entries List.nodup_range fun i hi => ?_
  by_contra hlength
  have hzero : (lines.map List.length).getD i 0 = 0 := by
    rw [List.mem_range, Nat.not_lt] at hlength
    rw [List.getD_eq_getElem?_getD, List.getElem?_eq_none (by simpa using hlength)]
    rfl
  have hnone := hmarks.marks i
  rw [hzero] at hnone
  exact hmarks.wellFormed.mem_keys_iff.1 hi (by simpa using hnone)

theorem exists_marks (h : ∀ d ∈ ds, d.range.IsProper) {m : Mark} (hm : m ∈ marks lines ds) :
    ∃ r, m.columns.Marks r m.line m.source.length := by
  obtain ⟨hline, hcolumns⟩ := mark_of_mem hm
  have hlength : (lines.map List.length).getD m.line 0 = m.source.length := by
    rw [List.getD_eq_getElem?_getD, List.getElem?_map, hline]
    rfl
  have hmarks := (marksEach_lineSpans h (lines.map List.length)).marks m.line
  exact hlength ▸ exists_marks_of_mem hmarks _ hcolumns

theorem listing_eq (h : ∀ d ∈ ds, d.range.IsProper) (lines : List Text) :
    listing lines ds = listed (numberWidth lines) 0 (rows lines ds) := by
  have hmarks := marksEach_lineSpans h (lines.map List.length)
  exact concatAt_numberedLines hmarks.wellFormed (fun i => isProper_of_marks (hmarks.marks i)) _ 0 0
    lines

theorem isProper_rows (h : ∀ d ∈ ds, d.range.IsProper) :
    ∀ r ∈ rows lines ds, ∀ c ∈ r.underlined, c.IsProper := by
  intro r hr
  obtain ⟨x, -, rfl⟩ := List.mem_map.1 hr
  exact isProper_of_marks ((marksEach_lineSpans h (lines.map List.length)).marks x.2)

theorem underlines_listing (h : ∀ d ∈ ds, d.range.IsProper) (lines : List Text) :
    (listing lines ds).underlines.map (listing lines ds).under =
      (marks lines ds).filterMap Mark.part? := by
  rw [listing_eq h, underlines_listed (isProper_rows h), flatMap_rows]

theorem underlinedIn_listing (h : ∀ d ∈ ds, d.range.IsProper) (hlines : ∀ l ∈ lines, IsLine l)
    (n : Nat) : (listing lines ds).underlinedIn n =
      lines[n]?.toList.flatMap fun source =>
        (Groups.get (lineSpans ds (lines.map List.length)) n).filterMap
          (·.part? (Styled.showable source)) := by
  have hplaced : (listing lines ds).underlinedIn n =
      (placed (numberWidth lines) [] (rows lines ds)).flatMap fun x =>
        if x.2.number = n + 1 then x.2.parts else [] := by
    have hunderlines : (listing lines ds).underlines =
        (placed (numberWidth lines) [] (rows lines ds)).flatMap
          fun x => x.2.underlines x.1.length := by
      rw [listing_eq h]
      exact filter_rowSpans _ [] _
    rw [Styled.underlinedIn, hunderlines, List.filter_flatMap, List.map_flatMap]
    refine List.flatMap_congr fun x hx => ?_
    obtain ⟨behind, hplain⟩ := exists_behind hx
    have hr : x.2 ∈ rows lines ds := map_snd_placed _ [] (rows lines ds) ▸ List.mem_map_of_mem hx
    have hlisting : (listing lines ds).plain = x.1 ++ (Styled.showable x.2.source ++ behind) := by
      rw [listing_eq h]
      exact hplain
    exact map_under_of_line hlisting (hlines _ (source_mem_of_mem_rowsFrom hr))
      (isProper_rows h _ hr) (number_of_mem_placed hlines rfl hx)
  have hrows : (rows lines ds).flatMap (fun r => if r.number = n + 1 then r.parts else []) =
      (placed (numberWidth lines) [] (rows lines ds)).flatMap fun x =>
        if x.2.number = n + 1 then x.2.parts else [] := by
    conv_lhs => rw [← map_snd_placed (numberWidth lines) [] (rows lines ds), List.flatMap_map]
  rw [hplaced, ← hrows, rows_eq, List.flatMap_map, ← Groups.flatMap_zipIdx]
  refine List.flatMap_congr fun x _ => ?_
  simp only [row, Nat.add_right_cancel_iff]
  split
  next hx =>
    subst hx
    rfl
  next => rfl

theorem Mark.meant_eq {m : Mark} (h : m.columns.IsProper) :
    m.meant = (Styled.showable m.source).slice (Styled.shownOffset m.source m.columns.first)
      (Styled.shownOffset m.source m.columns.last) :=
  Styled.showable_slice m.source (Int.le_of_lt h.lt)

/-- Columns are where they were in a line that shows everything up to their end. -/
theorem Mark.part?_eq_meant {m : Mark} (h : m.columns.IsProper)
    (hlast : m.columns.last ≤ m.source.length)
    (hshown : ∀ c ∈ m.source.take m.columns.last.toNat, c.movesCursor = false) :
    m.part? = some m.meant := by
  obtain ⟨hfirst, hlt⟩ := h
  have hstop : (Styled.shownOffset m.source m.columns.last : Int) = m.columns.last :=
    Styled.shownOffset_eq (by omega) hlast hshown
  have hstart : (Styled.shownOffset m.source m.columns.first : Int) = m.columns.first :=
    Styled.shownOffset_eq hfirst (by omega) fun c hc =>
      hshown c (List.take_subset_take_left m.source (by omega) hc)
  have hlength : m.columns.first < (Styled.showable m.source).length := by
    have hle := Styled.shownOffset_le m.source m.columns.last
    omega
  rw [Mark.part?, Columns.part?, if_pos hlength, meant_eq ⟨hfirst, hlt⟩, hstart, hstop]

/-- Each underline covers what is marked. -/
def UnderlinesMarks (lines : List Text) (ds : List Diagnostic) : Prop :=
  (listing lines ds).underlines.map (listing lines ds).under = (marks lines ds).map Mark.meant

/-- Each underline of a listing covers the columns that are marked, counted in the line as it is
shown. This is what is marked if no element in front of its end is left out. -/
theorem listing_underlines (h : ∀ d ∈ ds, d.range.IsProper) (lines : List Text) :
    (∀ m ∈ marks lines ds, lines[m.line]? = some m.source) ∧
    ((marks lines ds).map fun m => (m.line, m.columns)).Perm
      (Groups.entries (lineSpans ds (lines.map List.length))) ∧
    (listing lines ds).underlines.map (listing lines ds).under =
      (marks lines ds).filterMap Mark.part? ∧
    (∀ m ∈ marks lines ds, m.meant = (Styled.showable m.source).slice
      (Styled.shownOffset m.source m.columns.first) (Styled.shownOffset m.source m.columns.last)) ∧
    (UnderlinesMarks lines ds ↔ ∀ m ∈ marks lines ds, m.part? = some m.meant) ∧
    ((∀ m ∈ marks lines ds, ∀ c ∈ m.source.take m.columns.last.toNat, c.movesCursor = false) →
      UnderlinesMarks lines ds) := by
  have hiff : UnderlinesMarks lines ds ↔ ∀ m ∈ marks lines ds, m.part? = some m.meant := by
    rw [UnderlinesMarks, underlines_listing h]
    exact List.filterMap_eq_map_iff_forall_eq_some
  refine ⟨fun m hm => (mark_of_mem hm).1, perm_marks h lines, underlines_listing h lines,
    fun m hm => ?_, hiff, fun hshown => hiff.2 fun m hm => ?_⟩
  · obtain ⟨r, hmarks⟩ := exists_marks h hm
    exact Mark.meant_eq hmarks.toIsProper
  · obtain ⟨r, hmarks⟩ := exists_marks h hm
    exact Mark.part?_eq_meant hmarks.toIsProper hmarks.last (hshown m hm)

def ringingLines : List Text := ["abcdef\x07", "", "abc"]

theorem listing_underlines_ringingLines :
    (∀ d ∈ spreadDiagnostics, d.range.IsProper) ∧
    (listing ringingLines spreadDiagnostics).underlines.map
      (listing ringingLines spreadDiagnostics).under = ["ef", "ab", "c"] ∧
    UnderlinesMarks ringingLines spreadDiagnostics := by
  obtain ⟨-, -, hunderlines, -, hiff, -⟩ :=
    listing_underlines isProper_spreadDiagnostics ringingLines
  refine ⟨isProper_spreadDiagnostics, hunderlines.trans (by decide +kernel), hiff.2 ?_⟩
  have hmarks : marks ringingLines spreadDiagnostics =
      [⟨0, "abcdef\x07", ⟨4, 7⟩⟩, ⟨2, "abc", ⟨0, 2⟩⟩, ⟨2, "abc", ⟨2, 3⟩⟩] := rfl
  rw [hmarks]
  simp only [List.forall_mem_cons]
  exact ⟨by decide +kernel, by decide +kernel, by decide +kernel, List.forall_mem_nil _⟩

def bellSource : Text := "local bell = '\x07'; error bell\n"

def bellDiagnostic : Diagnostic := { range := ⟨⟨0, 18⟩, ⟨0, 28⟩⟩, message := "boom" }

theorem not_underlinesMarks_bell :
    bellDiagnostic.range.IsProper ∧
    (marks bellSource.lines [bellDiagnostic]).map Mark.meant = ["error bell"] ∧
    (listing bellSource.lines [bellDiagnostic]).underlines.map
      (listing bellSource.lines [bellDiagnostic]).under = ["rror bell"] ∧
    ¬ UnderlinesMarks bellSource.lines [bellDiagnostic] := by
  have hmeant : (marks bellSource.lines [bellDiagnostic]).map Mark.meant = ["error bell"] := by
    decide +kernel
  have hunder : (listing bellSource.lines [bellDiagnostic]).underlines.map
      (listing bellSource.lines [bellDiagnostic]).under = ["rror bell"] := by decide +kernel
  refine ⟨⟨by decide, by decide, by decide, .inr ⟨rfl, by decide⟩⟩, hmeant, hunder, ?_⟩
  rw [UnderlinesMarks, hmeant, hunder]
  decide

end Source
end JsonnetPreview
