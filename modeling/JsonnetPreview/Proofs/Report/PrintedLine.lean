import JsonnetPreview.Proofs.Report.Grammar
import JsonnetPreview.Proofs.Report.StaticError

namespace JsonnetPreview.Report

open DiagnosticSet Text

/-- A report names a file, and what stands behind it there. -/
inductive Prints : Report → Text → Text → Prop
  | static {message : Text} {frame : Frame} (hframe : Frame.read? message = some frame) :
      Prints (.static message) frame.file (message.drop frame.full.length)
  | runtime {message line : Text} {trace : List Text} {frame : Frame} (hline : line ∈ trace)
      (hframe : Frame.read? line = some frame) :
      Prints (.runtime message trace) frame.file (line.drop frame.indentedFile.length)

theorem file_subset_of_read? {line : Text} {frame : Frame} (h : Frame.read? line = some frame) :
    frame.file ⊆ line := by
  rw [Frame.read?] at h
  split at h
  case h_1 | h_2 => cases h
  case h_3 file rest hne hbreak =>
    cases h
    have hfile : file = (line.dropWhile CodePoint.isBlank).takeWhile
        (fun c => !decide (c = .char ':')) := by
      rw [← breakAt_fst, hbreak]
    show file ⊆ line
    rw [hfile]
    exact List.Subset.trans (List.takeWhile_subset _) (List.dropWhile_sublist _).subset

namespace Prints

variable {report file printed : Text}

theorem isFile {read : Report} (h : Prints read file printed) : IsFile file := by
  cases h with
  | static hframe | runtime hline hframe => exact isFile_of_read? hframe

theorem isLine (h : Prints (classify report) file printed) : IsLine file := by
  generalize hreport : classify report = read at h
  cases h with
  | static hframe =>
      exact fun c hc => isLine_of_classify (.inl hreport) c (file_subset_of_read? hframe hc)
  | runtime hline hframe =>
      rw [trace_of_classify hreport] at hline
      have hlines := isLine_of_mem_lines report _ (List.mem_of_mem_drop hline)
      exact fun c hc => hlines c (file_subset_of_read? hframe hc)

end Prints

theorem mem_of_mem_grouped {found : List (Text × Diagnostic)} {file : Text} {ds : List Diagnostic}
    (h : (file, ds) ∈ grouped found) {d : Diagnostic} (hd : d ∈ ds) : (file, d) ∈ found := by
  obtain ⟨f, -, he⟩ := List.mem_map.1 h
  cases he
  simpa [ofFile] using hd

theorem prints_of_mem_found {report : Text} {e : Extraction} (h : extract report = .ok e)
    {file : Text} {ds : List Diagnostic} (hds : (file, ds) ∈ e.found) {d : Diagnostic}
    (hd : d ∈ ds) : ∃ printed r, Prints (classify report) file printed ∧
      LocationRange.read? printed = .ok (some r) ∧ d.range = r.toRange := by
  cases hreport : classify report with
  | static message =>
      rw [extract, hreport] at h
      cases hfinding : staticFinding message with
      | error cause => simp [collect, hfinding] at h
      | ok f =>
          simp only [collect, hfinding, Except.ok.injEq] at h
          subst h
          cases f with
          | nothing | odd => cases hds
          | located file d =>
              obtain ⟨frame, r, hframe, rfl, hr, hrange, -⟩ := located_of_staticFinding hfinding
              cases List.mem_singleton.1 hds
              cases List.mem_singleton.1 hd
              exact ⟨_, r, .static hframe, hr, hrange⟩
  | runtime message trace =>
      rw [extract, hreport] at h
      rw [found_collect h, addAll_nil] at hds
      obtain ⟨line, hline, hlocated⟩ := List.mem_filterMap.1 (mem_of_mem_grouped hds hd)
      rw [located?] at hlocated
      split at hlocated
      next hfinding =>
        cases hlocated
        obtain ⟨frame, r, hframe, rfl, hr, rfl⟩ := located_of_traceFinding hfinding
        exact ⟨_, r, .runtime hline hframe, hr, rfl⟩
      next => cases hlocated
  | unrecognized line =>
      rw [extract, hreport] at h
      cases h
      cases hds

theorem readable_of_spells {n : Numeral} {u : Text} (h : n.Spells u)
    (hlen : n.length ≤ Numeral.digitLimit) : n.Readable := by
  refine ⟨h.ne_nil, fun d hd => ?_, hlen⟩
  have hmem : some d ∈ u.map CodePoint.digit? := h.digits ▸ List.mem_map_of_mem hd
  obtain ⟨c, -, hc⟩ := List.mem_map.1 hmem
  exact CodePoint.digit?_lt hc

theorem exists_denotes_of_read? {t : Text} {r : LocationRange}
    (h : LocationRange.read? t = .ok (some r)) : ∃ (s : Shape) (ns : List Numeral),
      s.Denotes ns r := by
  have hshort : ¬HasLongNumeral t := (read?_eq_ok_iff t).1 ⟨_, h⟩
  have hvalid := isValid_of_read? h
  rw [LocationRange.read?] at h
  split at h
  next => cases h
  next reading hof =>
    obtain ⟨q, range, hq, -⟩ := Reading.exists_spells (Reading.fits_of_of? hof).1
    have hlength : ∀ n ∈ reading.numerals, n.length ≤ Numeral.digitLimit := fun n hn =>
      Nat.not_lt.1 fun hlong => hshort ⟨reading, hof, n, hn, hlong⟩
    rw [mapM_value?_of_length_le hlength] at h
    have hdenote : (reading.shape.denote (reading.numerals.map Numeral.value)).filter
        LocationRange.isValid = some r := Except.ok.inj h
    refine ⟨reading.shape, reading.numerals, fun n hn => ?_,
      (Option.filter_eq_some_iff.1 hdenote).1, hvalid⟩
    obtain ⟨u, -, hu⟩ := hq.spells.exists_infix hn
    exact readable_of_spells hu (hlength n hn)

theorem readable_ofNat_value {n : Numeral} (h : n.Readable) :
    (Numeral.ofNat n.value).Readable := by
  have hvalue : n.value < 10 ^ Numeral.digitLimit :=
    (Numeral.value_lt h.digits).trans_le (Nat.pow_le_pow_right (by decide) h.length_le)
  refine ⟨?_, fun d => Numeral.lt_ten_of_mem_ofNat,
    (Numeral.length_ofNat_le_iff (by decide)).2 hvalue⟩
  intro hnil
  have htext := Numeral.text_ofNat n.value
  rw [hnil] at htext
  exact Nat.toDigits_ne_nil (List.map_eq_nil_iff.1 htext.symm)

theorem mem_of_denote {s : Shape} {ns : List Nat} {r : LocationRange} (h : s.denote ns = some r) :
    r.first.line ∈ ns ∧ r.first.column ∈ ns := by
  cases s <;> rcases ns with _ | ⟨l, _ | ⟨c, _ | ⟨l', _ | ⟨c', _ | ⟨_, _⟩⟩⟩⟩⟩ <;>
    first | cases h; done | (cases h; simp)

/-- The begin of a range, written as a position of its own. -/
def LocationRange.begin (r : LocationRange) : List Numeral :=
  [.ofNat r.first.line, .ofNat r.first.column]

theorem Shape.Denotes.begin {s : Shape} {ns : List Numeral} {r : LocationRange}
    (h : s.Denotes ns r) : Shape.point.Denotes r.begin ⟨r.first, r.first⟩ := by
  have hreadable {k : Nat} (hk : k ∈ ns.map Numeral.value) :
      (Numeral.ofNat k).Readable := by
    obtain ⟨n, hn, rfl⟩ := List.mem_map.1 hk
    exact readable_ofNat_value (h.readable n hn)
  obtain ⟨hline, hcolumn⟩ := mem_of_denote h.denote
  have hvalid := h.isValid
  refine ⟨?_, ?_, ?_⟩
  · exact List.forall_mem_cons.2 ⟨hreadable hline, List.forall_mem_singleton.2 (hreadable hcolumn)⟩
  · simp [LocationRange.begin, Shape.denote, Numeral.value_ofNat]
  · simp only [LocationRange.isValid, Bool.and_eq_true, decide_eq_true_eq, Bool.not_eq_true',
      decide_eq_false_iff_not] at hvalid ⊢
    obtain ⟨⟨⟨⟨hl, hc⟩, -⟩, -⟩, -⟩ := hvalid
    refine ⟨⟨⟨⟨hl, hc⟩, hl⟩, hc⟩, ?_⟩
    rintro (hlt | ⟨-, hlt⟩) <;> exact Nat.lt_irrefl _ hlt

theorem first_of_toRange {a b : LocationRange} (h : a.toRange.start = b.toRange.start) :
    a.first = b.first := by
  obtain ⟨⟨l, c⟩, last⟩ := a
  obtain ⟨⟨l', c'⟩, last'⟩ := b
  simp only [LocationRange.toRange, Position.mk.injEq, Location.mk.injEq] at h ⊢
  omega

def Diagnostic.said (d : Diagnostic) : Text := "error: " ++ d.message

theorem isMessage_said {d : Diagnostic} (h : IsLine d.message) : IsMessage d.said :=
  ⟨nofun, isLine_append.2 ⟨by decide, h⟩, by rintro c ⟨⟩; decide⟩

theorem line_eq_locatedError {d : Diagnostic} {r : LocationRange} (h : d.range = r.toRange)
    (file : Text) : d.line file = locatedError file .point r.begin (": " ++ d.said) := by
  obtain ⟨range, message, ⟨⟩⟩ := d
  cases h
  have hone (n : Nat) : ofInt ((n : Int) - 1 + 1) = (Numeral.ofNat n).text := by
    rw [Int.sub_add_cancel, Numeral.text_ofNat]
    rfl
  simp only [Diagnostic.line, hone]
  simp [joinWith, List.intercalate, locatedError, LocationRange.begin, Shape.write, Shape.pieces,
    writePieces, Diagnostic.said, Severity.name, ofString]

theorem staticFinding_line {d : Diagnostic} {r : LocationRange} (hd : d.range = r.toRange)
    (hpoint : Shape.point.Denotes r.begin ⟨r.first, r.first⟩) {file : Text} (hfile : IsFile file)
    (hmessage : IsLine d.message) : staticFinding (d.line file) =
      .ok (.located file ⟨LocationRange.toRange ⟨r.first, r.first⟩, d.said, .error⟩) := by
  have hsep : ofString ": " ∈ separators := by decide
  have hfinding := hpoint.staticFinding_locatedError hfile (delimited_separator hsep d.said)
  rw [trimStartOf_separator hsep (isMessage_said hmessage), if_neg nofun] at hfinding
  rw [line_eq_locatedError hd, hfinding]

/-- What is printed of a diagnostic is read as its file and the begin that the compiler printed, and
as the report of an error it is one diagnostic with the same begin. -/
theorem reads_line_of_extract {report : Text} {e : Extraction} (h : extract report = .ok e)
    {file : Text} {ds : List Diagnostic} (hds : (file, ds) ∈ e.found) {d : Diagnostic}
    (hd : d ∈ ds) :
    ∃ printed r, Prints (classify report) file printed ∧
      LocationRange.read? printed = .ok (some r) ∧ d.range = r.toRange ∧
      (∃ frame back, Frame.read? (d.line file) = some frame ∧ frame.file = file ∧
        LocationRange.read? ((d.line file).drop frame.full.length) = .ok (some back) ∧
        back.first = r.first ∧ (back.first.line : Int) = d.range.start.line + 1 ∧
        (back.first.column : Int) = d.range.start.character + 1) ∧
      ∃ d' : Diagnostic,
        extract ("x\nSTATIC ERROR: " ++ d.line file) = .ok ⟨[], [(file, [d'])]⟩ ∧
        d'.range.start = d.range.start ∧ d'.message = "error: " ++ d.message := by
  obtain ⟨printed, r, hprints, hread, hrange⟩ := prints_of_mem_found h hds hd
  obtain ⟨s, ns, hdenotes⟩ := exists_denotes_of_read? hread
  -- The begin alone is a position too, and this is what the line is read from.
  have hpoint := hdenotes.begin
  have hmessage : IsLine d.message := isLine_message_of_extract h _ hds d hd
  have hfile : IsFile file := hprints.isFile
  have hfinding := staticFinding_line hrange hpoint hfile hmessage
  have hline := line_eq_locatedError hrange file
  refine ⟨printed, r, hprints, hread, hrange, ?_, ?_⟩
  · obtain ⟨frame, back, hframe, hname, hback, hstart, -⟩ := located_of_staticFinding hfinding
    have hfirst : back.first = r.first := first_of_toRange (congrArg Range.start hstart).symm
    refine ⟨frame, back, hframe, hname, hback, hfirst, ?_, ?_⟩ <;>
      simp [hfirst, hrange, LocationRange.toRange]
  · have hbanner : IsLine "x" := by decide
    have herror : IsLine (d.line file) := by
      rw [hline]
      exact hpoint.isLine_locatedError hprints.isLine
        (isLine_append.2 ⟨by decide, (isMessage_said hmessage).isLine⟩)
    have hextract := extract_of_staticFinding hbanner herror hfinding []
    refine ⟨⟨LocationRange.toRange ⟨r.first, r.first⟩, d.said, .error⟩, ?_, ?_, rfl⟩
    · simpa [staticReport, joinWith, List.intercalate, ofString, staticMark] using hextract
    · rw [hrange]
      rfl

def paddedReport : Text :=
  "x\nRUNTIME ERROR:  : odd \t\n\ta b.jsonnet:(3:5)-(4:1)\tf\n\ta b.jsonnet:2:7-9\t\n"

theorem reads_line_of_extract_paddedReport :
    extract paddedReport = .ok ⟨[], [("a b.jsonnet",
      [⟨⟨⟨2, 4⟩, ⟨3, 1⟩⟩, " : odd \t", .error⟩, ⟨⟨⟨1, 6⟩, ⟨1, 9⟩⟩, " : odd \t", .error⟩])]⟩ ∧
    ∃ d' : Diagnostic,
      extract "x\nSTATIC ERROR: a b.jsonnet:2:7: error:  : odd \t" =
        .ok ⟨[], [("a b.jsonnet", [d'])]⟩ ∧
      d'.range.start = ⟨1, 6⟩ ∧ d'.message = "error:  : odd \t" := by
  have hextract : extract paddedReport = .ok ⟨[], [("a b.jsonnet",
      [⟨⟨⟨2, 4⟩, ⟨3, 1⟩⟩, " : odd \t", .error⟩, ⟨⟨⟨1, 6⟩, ⟨1, 9⟩⟩, " : odd \t", .error⟩])]⟩ := rfl
  obtain ⟨printed, r, -, -, -, -, hagain⟩ :=
    reads_line_of_extract hextract (List.mem_singleton_self _)
      (List.mem_cons_of_mem _ List.mem_cons_self)
  exact ⟨hextract, hagain⟩

end JsonnetPreview.Report
