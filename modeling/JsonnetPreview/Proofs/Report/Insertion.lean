import JsonnetPreview.Proofs.Report.Grouping
import JsonnetPreview.Proofs.Report.Interruption
import JsonnetPreview.Proofs.Report.Trace
import JsonnetPreview.Proofs.Text.Trim

namespace JsonnetPreview.Report

open DiagnosticSet Text

/-- What a line of a trace locates, with the message of its report. -/
def located? (message line : Text) : Option (Text × Diagnostic) :=
  match traceFinding message line with
  | .ok (.located file d) => some (file, d)
  | _ => none

theorem found_add_of_traceFinding {message line : Text} {finding : Finding}
    (h : traceFinding message line = .ok finding) (e : Extraction) :
    (e.add finding).found = addAll e.found (located? message line).toList := by
  rw [located?, h]
  cases finding <;> rfl

theorem found_collect {message : Text} {e e' : Extraction} {trace : List Text}
    (h : collect (traceFinding message) e trace = .ok e') :
    e'.found = addAll e.found (trace.filterMap (located? message)) := by
  induction trace generalizing e with
  | nil =>
      cases h
      rfl
  | cons line trace ih =>
      cases hline : traceFinding message line with
      | error cause => simp [collect, hline] at h
      | ok finding =>
          simp only [collect, hline] at h
          rw [ih h, found_add_of_traceFinding hline]
          cases hlocated : located? message line with
          | none => rw [List.filterMap_cons_none hlocated]; rfl
          | some x => rw [List.filterMap_cons_some hlocated]; rfl

theorem located_of_traceFinding {message line file : Text} {d : Diagnostic}
    (h : traceFinding message line = .ok (.located file d)) :
    ∃ frame range, Frame.read? line = some frame ∧ frame.file = file ∧
      LocationRange.read? (line.drop frame.indentedFile.length) = .ok (some range) ∧
      d = { range := range.toRange, message } := by
  rw [traceFinding] at h
  split at h
  · cases hframe : Frame.read? line with
    | none => simp [hframe] at h
    | some frame =>
        simp only [hframe] at h
        cases hrange : LocationRange.read? (line.drop frame.indentedFile.length) with
        | error cause =>
            rw [hrange] at h
            cases h
        | ok range =>
            rw [hrange] at h
            cases range with
            | none => cases h
            | some range =>
                cases h
                exact ⟨frame, range, rfl, rfl, hrange, rfl⟩
  · cases h

theorem file_of_located? {message line file : Text} {d : Diagnostic}
    (h : located? message line = some (file, d)) :
    ∃ frame, Frame.read? line = some frame ∧ frame.file = file := by
  rw [located?] at h
  split at h
  next hfinding =>
    cases h
    obtain ⟨frame, range, hframe, hfile, -⟩ := located_of_traceFinding hfinding
    exact ⟨frame, hframe, hfile⟩
  next => cases h

theorem wellFormed_collect {finding : Text → Except NumeralTooLong Finding} {e e' : Extraction}
    {ls : List Text} (he : e.found.WellFormed) (h : collect finding e ls = .ok e') :
    e'.found.WellFormed := by
  induction ls generalizing e with
  | nil =>
      cases h
      exact he
  | cons l ls ih =>
      cases hl : finding l with
      | error cause => simp [collect, hl] at h
      | ok f =>
          simp only [collect, hl] at h
          refine ih ?_ h
          cases f with
          | nothing | odd => exact he
          | located file d => exact wellFormed_add he

theorem wellFormed_extract {report : Text} {e : Extraction} (h : extract report = .ok e) :
    e.found.WellFormed := by
  have hnil : WellFormed [] := ⟨List.nodup_nil, nofun⟩
  rw [extract] at h
  cases hreport : classify report with
  | static message =>
      simp only [hreport] at h
      exact wellFormed_collect hnil h
  | runtime message trace =>
      simp only [hreport] at h
      exact wellFormed_collect hnil h
  | unrecognized line =>
      simp only [hreport, Except.ok.injEq] at h
      exact h ▸ hnil

/-- One diagnostic more in the list of a file. -/
structure Gains (file : Text) (d : Diagnostic) (s t : DiagnosticSet) : Prop where
  own : ∃ before after, s.get file = before ++ after ∧ t.get file = before ++ d :: after
  others : t.others file = s.others file

theorem gains_addAll (file : Text) (d : Diagnostic) (xs ys : List (Text × Diagnostic)) :
    Gains file d (addAll [] (xs ++ ys)) (addAll [] (xs ++ (file, d) :: ys)) where
  own := by
    refine ⟨ofFile file xs, ofFile file ys, ?_, ?_⟩
    · rw [get_addAll, ofFile, List.filter_append, List.map_append]
      rfl
    · have hself : ofFile file ((file, d) :: ys) = d :: ofFile file ys := by simp [ofFile]
      rw [get_addAll, ← hself, ofFile, List.filter_append, List.map_append]
      rfl
  others := by simp [others_addAll, elsewhere]

/-- Two runtime reports, the second of which has a line more in its trace. -/
inductive Inserted (line report longer : Text) : Prop
  | mk (first message : Text) (before after : List Text)
      (hreport : report.lines = first :: (runtimeMark ++ message) :: (before ++ after))
      (hlonger : longer.lines = first :: (runtimeMark ++ message) :: (before ++ line :: after))

theorem inserted_of_isLine {line : Text} (hline : IsLine line) {head first message : Text}
    {before : List Text}
    (hhead : lines (head ++ [.char '\n']) = first :: (runtimeMark ++ message) :: before)
    (rest : Text) :
    Inserted line (head ++ .char '\n' :: rest)
      (head ++ .char '\n' :: (line ++ .char '\n' :: rest)) := by
  refine .mk first message before rest.lines ?_ ?_
  · rw [lines_append_newline_append, hhead, List.cons_append, List.cons_append]
  · rw [lines_append_newline_append, hhead, lines_append_newline hline, List.cons_append,
      List.cons_append]

theorem classify_runtime {report first message : Text} {trace : List Text}
    (h : report.lines = first :: (runtimeMark ++ message) :: trace) :
    classify report = .runtime message trace := by
  rw [classify_of_lines h]
  rfl

theorem found_extract_runtime {report first message : Text} {trace : List Text} {e : Extraction}
    (h : report.lines = first :: (runtimeMark ++ message) :: trace) (he : extract report = .ok e) :
    e.found = addAll [] (trace.filterMap (located? message)) := by
  rw [extract, classify_runtime h] at he
  exact found_collect he

theorem extract_eq_ok_iff_of_inserted {line report longer : Text}
    (h : Inserted line report longer) :
    (∃ e, extract longer = .ok e) ↔
      (∃ e, extract report = .ok e) ∧ ∀ t ∈ framePosition? line, ¬HasLongNumeral t := by
  obtain ⟨first, message, before, after, hreport, hlonger⟩ := h
  have hmem : ∀ t, t ∈ (before ++ line :: after).filterMap framePosition? ↔
      t ∈ (before ++ after).filterMap framePosition? ∨ t ∈ framePosition? line := by
    intro t
    rw [(List.perm_middle.filterMap framePosition?).mem_iff, or_comm]
    simp only [List.mem_filterMap, List.mem_cons, or_and_right, exists_or, exists_eq_left,
      Option.mem_def]
  rw [extract_eq_ok_iff, extract_eq_ok_iff, classify_runtime hreport, classify_runtime hlonger]
  simp only [positions, hmem, or_imp, forall_and]

theorem found_of_inserted {line report longer : Text} (h : Inserted line report longer)
    {e e' : Extraction} (he : extract report = .ok e) (he' : extract longer = .ok e') :
    e'.found = e.found ∨
      ∃ frame d, Frame.read? line = some frame ∧ Gains frame.file d e.found e'.found := by
  obtain ⟨first, message, before, after, hreport, hlonger⟩ := h
  rw [found_extract_runtime hreport he, found_extract_runtime hlonger he', List.filterMap_append,
    List.filterMap_append]
  cases hline : located? message line with
  | none =>
      rw [List.filterMap_cons_none hline]
      exact .inl rfl
  | some x =>
      obtain ⟨file, d⟩ := x
      obtain ⟨frame, hframe, rfl⟩ := file_of_located? hline
      rw [List.filterMap_cons_some hline]
      exact .inr ⟨frame, d, hframe, gains_addAll frame.file d _ _⟩

/-- Nothing but a numeral that is too long to be read hides a diagnostic: the extraction succeeds if
and only if no position has such a numeral, and a line more in a trace then adds at most one
diagnostic, to the list of the file that it names. -/
theorem extract_inserted (report : Text) :
    ((∃ e, extract report = .ok e) ↔ ∀ t ∈ (classify report).positions, ¬HasLongNumeral t) ∧
      (∀ e, extract report = .ok e → e.found.WellFormed) ∧
      ∀ line longer, Inserted line report longer →
        ((∃ e, extract longer = .ok e) ↔
          (∃ e, extract report = .ok e) ∧ ∀ t ∈ framePosition? line, ¬HasLongNumeral t) ∧
        ∀ e e', extract report = .ok e → extract longer = .ok e' →
          e'.found = e.found ∨
            ∃ frame d, Frame.read? line = some frame ∧ Gains frame.file d e.found e'.found := by
  refine ⟨extract_eq_ok_iff report, fun e => wellFormed_extract, ?_⟩
  intro line longer h
  exact ⟨extract_eq_ok_iff_of_inserted h, fun e e' => found_of_inserted h⟩

def twoFrames : Text := "x\nRUNTIME ERROR: m\n\ta:1:1\n\tb:2:2\n"

def framesAround (line : Text) : Text :=
  ("x\nRUNTIME ERROR: m\n\ta:1:1" : Text) ++
    .char '\n' :: (line ++ .char '\n' :: ("\tb:2:2\n" : Text))

theorem inserted_framesAround {line : Text} (h : IsLine line) :
    Inserted line twoFrames (framesAround line) := by
  have hhead : lines (("x\nRUNTIME ERROR: m\n\ta:1:1" : Text) ++ [.char '\n']) =
      ("x" : Text) :: (runtimeMark ++ ("m" : Text)) :: [("\ta:1:1" : Text)] := rfl
  exact inserted_of_isLine h hhead "\tb:2:2\n"

theorem extract_inserted_twoFrames :
    Inserted "\tb:7:1" twoFrames (framesAround "\tb:7:1") ∧ ∃ e e' d,
      extract twoFrames = .ok e ∧ extract (framesAround "\tb:7:1") = .ok e' ∧
        Gains "b" d e.found e'.found := by
  have hinserted : Inserted "\tb:7:1" twoFrames (framesAround "\tb:7:1") :=
    inserted_framesAround (by decide)
  obtain ⟨e, he⟩ : ∃ e, extract twoFrames = .ok e := ⟨_, rfl⟩
  obtain ⟨e', he'⟩ : ∃ e, extract (framesAround "\tb:7:1") = .ok e := ⟨_, rfl⟩
  refine ⟨hinserted, e, e', ?_⟩
  rcases ((extract_inserted twoFrames).2.2 _ _ hinserted).2 e e' he he' with
    heq | ⟨frame, d, hframe, hgains⟩
  · cases he
    cases he'
    exact absurd heq (by decide)
  · cases hframe
    exact ⟨d, he, he', hgains⟩

def longNumeral : Numeral := List.replicate 4301 1

def longLine : Text := .char '\t' :: .char 'b' :: .char ':' :: (longNumeral.text ++ (":1" : Text))

theorem isFrame_of_trimStart {line t : Text} {c : CodePoint} (h : trimStart line = c :: t)
    (hc : phaseMark.head? ≠ some c) : isFrame line = true := by
  have hblank : c.isBlank = false := by
    have := List.head?_dropWhile_not CodePoint.isBlank line
    rw [← trimStart, h] at this
    exact this
  obtain ⟨b, hb, htrim⟩ := exists_trimEnd (trimStart line)
  rw [← trim, h] at htrim
  refine (isFrame_iff line).2 ⟨fun hnil => ?_, fun hphase => ?_⟩
  · rw [hnil, List.nil_append] at htrim
    simp [hb c (htrim ▸ List.mem_cons_self)] at hblank
  · obtain ⟨rest, hrest⟩ := hphase.trans ⟨b, htrim.symm⟩
    exact hc (congrArg List.head? hrest)

theorem length_longNumeral : longNumeral.length = 4301 := List.length_replicate

theorem hasLongNumeral_longNumeral :
    HasLongNumeral (.char ':' :: (longNumeral.text ++ (":1" : Text))) := by
  have hne : longNumeral ≠ [] := List.ne_nil_of_length_pos (by rw [length_longNumeral]; decide)
  have hdigits : ∀ d ∈ longNumeral, d < 10 := fun d hd => by
    rw [List.eq_of_mem_replicate hd]
    decide
  have hspells : Spells Shape.point.pieces [longNumeral, [1]] (longNumeral.text ++ (":1" : Text)) :=
    .numeral ⟨hne, Numeral.digits_text hdigits⟩
      (.mark ':' (.numeral (u := "1") ⟨List.cons_ne_nil _ _, by decide⟩ .nil))
  have hlead : Reading.skipLead (.char ':' :: (longNumeral.text ++ (":1" : Text))) =
      longNumeral.text ++ (":1" : Text) := rfl
  refine ⟨_, hlead ▸ hspells.of?_eq, longNumeral, List.mem_cons_self, ?_⟩
  rw [length_longNumeral]
  decide

theorem framePosition?_longLine :
    framePosition? longLine = some (.char ':' :: (longNumeral.text ++ (":1" : Text))) := by
  rw [framePosition?, if_pos (isFrame_of_trimStart (c := .char 'b') rfl (by decide))]
  rfl

theorem isLine_longLine : IsLine longLine := by
  refine isLine_cons.2 ⟨by decide, isLine_cons.2 ⟨by decide, isLine_cons.2 ⟨by decide, ?_⟩⟩⟩
  refine isLine_append.2 ⟨fun c hc => ?_, by decide⟩
  obtain ⟨d, hd, rfl⟩ := List.mem_map.1 hc
  rw [List.eq_of_mem_replicate hd]
  decide

theorem not_extract_longLine :
    Inserted longLine twoFrames (framesAround longLine) ∧
      extract twoFrames =
        .ok ⟨[], [("a", [⟨⟨⟨0, 0⟩, ⟨0, 1⟩⟩, "m", .error⟩]),
          ("b", [⟨⟨⟨1, 1⟩, ⟨1, 2⟩⟩, "m", .error⟩])]⟩ ∧
      ¬∃ e, extract (framesAround longLine) = .ok e := by
  have hinserted := inserted_framesAround isLine_longLine
  refine ⟨hinserted, rfl, fun h => ?_⟩
  have hshort := ((extract_eq_ok_iff_of_inserted hinserted).1 h).2
  exact hshort _ framePosition?_longLine hasLongNumeral_longNumeral

end JsonnetPreview.Report
