import JsonnetPreview.Proofs.Report.Insertion

namespace JsonnetPreview.Report

open DiagnosticSet Text

/-- A file as a line can name it. -/
structure IsFile (file : Text) : Prop where
  ne_nil : file ≠ []
  colon_not_mem : .char ':' ∉ file
  not_isBlank_head : ∀ c ∈ file.head?, c.isBlank = false

theorem breakAt_fst (p : CodePoint → Bool) (t : Text) : (breakAt p t).1 = t.takeWhile (!p ·) := by
  induction t with
  | nil => rfl
  | cons c t ih => cases hc : p c <;> simp [breakAt, hc, ih]

theorem isFile_of_read? {line : Text} {frame : Frame} (h : Frame.read? line = some frame) :
    IsFile frame.file := by
  rw [Frame.read?] at h
  split at h
  case h_1 | h_2 => cases h
  case h_3 file rest hne hbreak =>
    cases h
    have hfile : file = (line.dropWhile CodePoint.isBlank).takeWhile
        (fun c => !decide (c = .char ':')) := by
      rw [← breakAt_fst, hbreak]
    refine ⟨hne, ?_, ?_⟩
    · show .char ':' ∉ file
      intro hmem
      rw [hfile] at hmem
      exact absurd (List.mem_takeWhile_imp hmem) (by simp)
    · intro c hc
      obtain ⟨t, rfl⟩ := List.head?_eq_some_iff.1 hc
      obtain ⟨u, hu⟩ : c :: t <+: line.dropWhile CodePoint.isBlank :=
        hfile ▸ List.takeWhile_prefix _
      have hhead := List.head?_dropWhile_not CodePoint.isBlank line
      rw [← hu] at hhead
      simpa using hhead

instance : LT Position where
  lt a b := a.line < b.line ∨ (a.line = b.line ∧ a.character < b.character)

structure Range.IsProper (r : Range) : Prop where
  line : 0 ≤ r.start.line
  character : 0 ≤ r.start.character
  stop : 1 ≤ r.stop.character
  lt : r.start < r.stop

theorem isProper_toRange {r : LocationRange} (h : r.isValid = true) : r.toRange.IsProper := by
  obtain ⟨⟨l, c⟩, ⟨l', c'⟩⟩ := r
  simp only [LocationRange.isValid, Bool.and_eq_true, decide_eq_true_eq, Bool.not_eq_true',
    decide_eq_false_iff_not] at h
  obtain ⟨⟨⟨⟨hl, hc⟩, hl'⟩, hc'⟩, hle⟩ := h
  have hle : ¬(l' < l ∨ (l' = l ∧ c' < c)) := hle
  constructor
  · show (0 : Int) ≤ l - 1
    omega
  · show (0 : Int) ≤ c - 1
    omega
  · show (1 : Int) ≤ c'
    omega
  · show (l : Int) - 1 < l' - 1 ∨ ((l : Int) - 1 = l' - 1 ∧ (c : Int) - 1 < c')
    omega

theorem isValid_of_read? {t : Text} {r : LocationRange}
    (h : LocationRange.read? t = .ok (some r)) : r.isValid = true := by
  rw [LocationRange.read?] at h
  split at h
  next => cases h
  next reading _ =>
    cases hvalues : reading.numerals.mapM Numeral.value? with
    | error cause =>
        rw [hvalues] at h
        cases h
    | ok values =>
        rw [hvalues] at h
        exact (Option.filter_eq_some_iff.1 (Except.ok.inj h)).2

/-- What is found has a file and something in its range. -/
def Finding.IsProper : Finding → Prop
  | .nothing | .odd _ => True
  | .located file d => IsFile file ∧ d.range.IsProper

theorem isProper_of_traceFinding {message line : Text} {f : Finding}
    (h : traceFinding message line = .ok f) : f.IsProper := by
  cases f with
  | nothing | odd => trivial
  | located file d =>
      obtain ⟨frame, range, hframe, rfl, hrange, rfl⟩ := located_of_traceFinding h
      exact ⟨isFile_of_read? hframe, isProper_toRange (isValid_of_read? hrange)⟩

theorem trim_ne_nil_of_read? {t : Text} {r : LocationRange}
    (h : LocationRange.read? t = .ok (some r)) : trim t ≠ [] := by
  intro htrim
  have hstart : trimStart t = [] := by
    obtain ⟨b, hb, ht⟩ := exists_trimEnd (trimStart t)
    rw [← trim, htrim, List.nil_append] at ht
    have hhead := List.head?_dropWhile_not CodePoint.isBlank t
    rw [← trimStart, ht] at hhead
    cases b with
    | nil => exact ht
    | cons c b => simp [hb c (List.mem_cons_self ..)] at hhead
  rw [LocationRange.read?, Reading.skipLead, hstart] at h
  cases h

theorem located_of_staticFinding {message file : Text} {d : Diagnostic}
    (h : staticFinding message = .ok (.located file d)) :
    ∃ frame range, Frame.read? message = some frame ∧ frame.file = file ∧
      LocationRange.read? (message.drop frame.full.length) = .ok (some range) ∧
      d.range = range.toRange ∧ d.message ≠ [] ∧ d.message ⊆ message := by
  rw [staticFinding] at h
  cases hframe : Frame.read? message with
  | none => simp [hframe] at h
  | some frame =>
      simp only [hframe] at h
      cases hrange : LocationRange.read? (message.drop frame.full.length) with
      | error cause =>
          rw [hrange] at h
          cases h
      | ok range =>
          rw [hrange] at h
          cases range with
          | none => cases h
          | some range =>
              cases h
              have hdrop : message.drop frame.full.length ⊆ message := List.drop_subset _ _
              refine ⟨frame, range, rfl, rfl, hrange, rfl, ?_⟩
              dsimp only
              split
              next => exact ⟨trim_ne_nil_of_read? hrange, List.Subset.trans (trim_subset _) hdrop⟩
              next hsaid =>
                refine ⟨by simpa using hsaid, List.Subset.trans ?_ hdrop⟩
                exact List.Subset.trans (List.dropWhile_sublist _).subset (List.drop_subset _ _)

theorem isProper_of_staticFinding {message : Text} {f : Finding}
    (h : staticFinding message = .ok f) : f.IsProper := by
  cases f with
  | nothing | odd => trivial
  | located file d =>
      obtain ⟨frame, range, hframe, rfl, hrange, hd, -⟩ := located_of_staticFinding h
      exact ⟨isFile_of_read? hframe, hd ▸ isProper_toRange (isValid_of_read? hrange)⟩

namespace DiagnosticSet

def IsProper (s : DiagnosticSet) : Prop :=
  ∀ entry ∈ s, IsFile entry.1 ∧ ∀ d ∈ entry.2, d.range.IsProper

/-- Files and diagnostics of a kind. -/
def All (p : Text → Prop) (q : Diagnostic → Prop) (s : DiagnosticSet) : Prop :=
  ∀ entry ∈ s, p entry.1 ∧ ∀ d ∈ entry.2, q d

variable {p : Text → Prop} {q : Diagnostic → Prop}

theorem all_add {file : Text} {d : Diagnostic} (hfile : p file) (hd : q d) {s : DiagnosticSet}
    (h : s.All p q) : (add file d s).All p q := by
  induction s with
  | nil => exact List.forall_mem_singleton.2 ⟨hfile, List.forall_mem_singleton.2 hd⟩
  | cons entry s ih =>
      obtain ⟨f, ds⟩ := entry
      obtain ⟨⟨hf, hds⟩, hs⟩ := List.forall_mem_cons.1 h
      by_cases hne : f = file
      · rw [add, if_pos hne]
        refine List.forall_mem_cons.2 ⟨⟨hf, ?_⟩, hs⟩
        exact List.forall_mem_append.2 ⟨hds, List.forall_mem_singleton.2 hd⟩
      · rw [add, if_neg hne]
        exact List.forall_mem_cons.2 ⟨⟨hf, hds⟩, ih hs⟩

end DiagnosticSet

theorem all_collect {p : Text → Prop} {q : Diagnostic → Prop}
    {finding : Text → Except NumeralTooLong Finding} {ls : List Text}
    (hfinding : ∀ l ∈ ls, ∀ {file d}, finding l = .ok (.located file d) → p file ∧ q d)
    {e e' : Extraction} (he : e.found.All p q) (h : collect finding e ls = .ok e') :
    e'.found.All p q := by
  induction ls generalizing e with
  | nil =>
      cases h
      exact he
  | cons l ls ih =>
      cases hl : finding l with
      | error cause => simp [collect, hl] at h
      | ok f =>
          simp only [collect, hl] at h
          refine ih (fun l hl => hfinding l (List.mem_cons_of_mem _ hl)) ?_ h
          cases f with
          | nothing | odd => exact he
          | located file d =>
              obtain ⟨hfile, hd⟩ := hfinding l (List.mem_cons_self ..) hl
              exact all_add hfile hd he

theorem isProper_extract {report : Text} {e : Extraction} (h : extract report = .ok e) :
    e.found.IsProper := by
  have hnil : DiagnosticSet.All IsFile (·.range.IsProper) [] := List.forall_mem_nil _
  rw [extract] at h
  split at h
  next => exact all_collect (fun _ _ _ _ => isProper_of_staticFinding) hnil h
  next => exact all_collect (fun _ _ _ _ => isProper_of_traceFinding) hnil h
  next =>
    cases h
    exact hnil

theorem isLine_of_classify {report message : Text}
    (h : classify report = .static message ∨ ∃ trace, classify report = .runtime message trace) :
    IsLine message := by
  have hof {mark line message : Text} (hline : line ∈ report.lines)
      (hmark : mark.isPrefixOf? line = some message) : IsLine message := by
    have happend := List.isPrefixOf?_eq_some_iff_append_eq.1 hmark
    exact (isLine_append.1 (happend ▸ isLine_of_mem_lines report line hline)).2
  rw [classify] at h
  split at h
  next first line rest hlines =>
    have hline : line ∈ report.lines := hlines ▸ List.mem_cons_of_mem _ (List.mem_cons_self ..)
    rw [ofLine] at h
    split at h
    next m x hmark =>
      cases h.resolve_right (by simp)
      exact hof hline hmark
    next m x hmark =>
      obtain ⟨trace, h⟩ := h.resolve_left (by simp)
      cases h
      exact hof hline hmark
    next => simp at h
  next => simp at h

theorem isLine_message_of_extract {report : Text} {e : Extraction} (h : extract report = .ok e) :
    ∀ entry ∈ e.found, ∀ d ∈ entry.2, IsLine d.message := by
  have hnil : DiagnosticSet.All (fun _ => True) (IsLine ·.message) [] := List.forall_mem_nil _
  suffices hall : e.found.All (fun _ => True) (IsLine ·.message) from
    fun entry hentry => (hall entry hentry).2
  rw [extract] at h
  split at h
  next message hreport =>
    refine all_collect (fun l hl file d hfinding => ⟨trivial, ?_⟩) hnil h
    obtain ⟨frame, range, -, -, -, -, -, hd⟩ := located_of_staticFinding hfinding
    rw [List.mem_singleton.1 hl] at hd
    exact fun c hc => isLine_of_classify (.inl hreport) c (hd hc)
  next message trace hreport =>
    refine all_collect (fun l hl file d hfinding => ⟨trivial, ?_⟩) hnil h
    obtain ⟨frame, range, -, -, -, rfl⟩ := located_of_traceFinding hfinding
    exact isLine_of_classify (.inr ⟨trace, hreport⟩)
  next =>
    cases h
    exact hnil

theorem found_extract_static {report message : Text} {e : Extraction}
    (hreport : classify report = .static message) (h : extract report = .ok e) :
    e.found.count ≤ 1 ∧ ∀ entry ∈ e.found, ∀ d ∈ entry.2, d.message ≠ [] := by
  rw [extract, hreport] at h
  cases hfinding : staticFinding message with
  | error cause => simp [collect, hfinding] at h
  | ok f =>
      simp only [collect, hfinding, Except.ok.injEq] at h
      subst h
      cases f with
      | nothing | odd => exact ⟨Nat.zero_le 1, List.forall_mem_nil _⟩
      | located file d =>
          obtain ⟨frame, range, -, -, -, -, hd, -⟩ := located_of_staticFinding hfinding
          exact ⟨Nat.le_refl 1, List.forall_mem_singleton.2 (List.forall_mem_singleton.2 hd)⟩

/-- A line is blank, or it names a phase. -/
def IsIgnored (line : Text) : Prop := trim line = [] ∨ phaseMark <+: trim line

instance : DecidablePred IsIgnored := fun line =>
  inferInstanceAs (Decidable (trim line = [] ∨ phaseMark <+: trim line))

def isWarning (n : Notice) : Bool := n.record.level = .warning

theorem isFrame_eq_false_iff (line : Text) : isFrame line = false ↔ IsIgnored line := by
  rw [← Bool.not_eq_true, isFrame_iff, IsIgnored]
  tauto

theorem traceFinding_cases {message line : Text} {f : Finding}
    (h : traceFinding message line = .ok f) :
    (IsIgnored line ∧ f = .nothing) ∨
      (¬IsIgnored line ∧
        ((∃ n, f = .odd n ∧ isWarning n = true) ∨ ∃ file d, f = .located file d)) := by
  rw [← isFrame_eq_false_iff, traceFinding] at *
  cases hline : isFrame line with
  | false =>
      rw [hline] at h
      cases h
      exact .inl ⟨rfl, rfl⟩
  | true =>
      rw [hline, if_pos rfl] at h
      refine .inr ⟨Bool.noConfusion, ?_⟩
      split at h
      next =>
        cases h
        exact .inl ⟨_, rfl, rfl⟩
      next frame _ =>
        cases hrange : LocationRange.read? (line.drop frame.indentedFile.length) with
        | error cause =>
            rw [hrange] at h
            cases h
        | ok range =>
            rw [hrange] at h
            cases range with
            | none =>
                cases h
                exact .inl ⟨_, rfl, rfl⟩
            | some range =>
                cases h
                exact .inr ⟨_, _, rfl⟩

/-- A line is ignored, or it adds one notice or one diagnostic. -/
theorem count_add_of_traceFinding {message line : Text} {f : Finding}
    (h : traceFinding message line = .ok f) (e : Extraction) :
    [line].countP IsIgnored + (e.add f).notices.countP isWarning + (e.add f).found.count =
      e.notices.countP isWarning + e.found.count + 1 := by
  rcases traceFinding_cases h with ⟨hline, rfl⟩ | ⟨hline, ⟨n, rfl, hn⟩ | ⟨file, d, rfl⟩⟩
  · simp only [Extraction.add, List.countP_singleton, hline, decide_true, if_true]
    omega
  · simp only [Extraction.add, List.countP_append, List.countP_singleton, hline, decide_false, hn]
    simp only [Bool.false_eq_true, if_false, if_true]
    omega
  · simp only [Extraction.add, List.countP_singleton, hline, decide_false, count_add]
    simp only [Bool.false_eq_true, if_false]
    omega

theorem count_of_collect {message : Text} {e e' : Extraction} {trace : List Text}
    (h : collect (traceFinding message) e trace = .ok e') :
    trace.countP IsIgnored + e'.notices.countP isWarning + e'.found.count =
      e.notices.countP isWarning + e.found.count + trace.length := by
  induction trace generalizing e with
  | nil =>
      cases h
      simp
  | cons line trace ih =>
      cases hline : traceFinding message line with
      | error cause => simp [collect, hline] at h
      | ok f =>
          simp only [collect, hline] at h
          have htrace := ih h
          have hstep := count_add_of_traceFinding hline e
          rw [← List.singleton_append, List.countP_append, List.length_append,
            List.length_singleton]
          omega

theorem trace_of_classify {report message : Text} {trace : List Text}
    (h : classify report = .runtime message trace) : trace = report.lines.drop 2 := by
  rw [classify] at h
  split at h
  next first line rest hlines =>
    rw [hlines]
    rw [ofLine] at h
    split at h <;> cases h
    rfl
  next => cases h

theorem length_trace_of_extract {report message : Text} {trace : List Text} {e : Extraction}
    (hreport : classify report = .runtime message trace) (h : extract report = .ok e) :
    trace.length = trace.countP IsIgnored + e.notices.countP isWarning + e.found.count := by
  rw [extract, hreport] at h
  have hcount := count_of_collect h
  simp only [List.countP_nil, DiagnosticSet.count, Nat.zero_add] at hcount
  exact hcount.symm

/-- Whatever a report says, each file of its diagnostics stands in the set once, is one that a line
can name and has a diagnostic, and no range is empty. A static error leaves one diagnostic at most,
which says something. Every line of a trace is ignored, or there is a warning about it, or it is one
of the diagnostics. -/
theorem accounts_of_extract {report : Text} {e : Extraction} (h : extract report = .ok e) :
    e.found.WellFormed ∧ e.found.IsProper ∧
      (∀ message, classify report = .static message →
        e.found.count ≤ 1 ∧ ∀ entry ∈ e.found, ∀ d ∈ entry.2, d.message ≠ []) ∧
      ∀ message trace, classify report = .runtime message trace →
        trace = report.lines.drop 2 ∧
          trace.length =
            trace.countP IsIgnored + e.notices.countP isWarning + e.found.count := by
  refine ⟨wellFormed_extract h, isProper_extract h, ?_, ?_⟩
  · exact fun message hreport => found_extract_static hreport h
  · exact fun message trace hreport =>
      ⟨trace_of_classify hreport, length_trace_of_extract hreport h⟩

def mixedReport : Text :=
  "x\nRUNTIME ERROR: m\n\ta:1:1\n\n\tDuring manifestation\nodd\n\tb:0:1\n\ta:2:3-4\n"

def bareReport : Text := "x\nSTATIC ERROR: f:3:5"

def warningsOf (report : Text) : Nat :=
  match extract report with
  | .ok e => e.notices.countP isWarning
  | .error _ => 0

theorem accounts_of_extract_mixedReport :
    (∃ e, extract mixedReport = .ok e ∧ e.found.WellFormed ∧ e.found.IsProper ∧
      6 = 2 + e.notices.countP isWarning + e.found.count ∧
      e.notices.countP isWarning = 2 ∧ e.found.count = 2) ∧
    ∃ e, extract bareReport = .ok e ∧ e.found.count ≤ 1 ∧
      ∀ entry ∈ e.found, ∀ d ∈ entry.2, d.message ≠ [] := by
  constructor
  · obtain ⟨e, he⟩ : ∃ e, extract mixedReport = .ok e := ⟨_, rfl⟩
    obtain ⟨hwellFormed, hproper, -, htrace⟩ := accounts_of_extract he
    have hcount : 6 = 2 + e.notices.countP isWarning + e.found.count := (htrace _ _ rfl).2
    have hwarnings : e.notices.countP isWarning = 2 := by
      have hwarnings : warningsOf mixedReport = 2 := by decide +kernel
      rwa [warningsOf, he] at hwarnings
    exact ⟨e, he, hwellFormed, hproper, hcount, hwarnings, by omega⟩
  · obtain ⟨e, he⟩ : ∃ e, extract bareReport = .ok e := ⟨_, rfl⟩
    obtain ⟨-, -, hstatic, -⟩ := accounts_of_extract he
    exact ⟨e, he, hstatic _ rfl⟩

end JsonnetPreview.Report
