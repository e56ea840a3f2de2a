import JsonnetPreview.Proofs.Text.Lines
import JsonnetPreview.Proofs.Text.ShellWord
import JsonnetPreview.Report.Extract
import JsonnetPreview.Report.Basic

namespace JsonnetPreview

namespace Text

theorem isLineBreak_of_isShellSafe {c : CodePoint} (h : isShellSafe c = true) :
    c.isLineBreak = false := by
  cases c with
  | surrogate i => cases h
  | char c =>
      rcases Bool.or_eq_true _ _ ▸ h with h | h
      · delta Char.isAlphanum Char.isAlpha Char.isUpper Char.isLower Char.isDigit at h
        simp only [Bool.or_eq_true, Bool.and_eq_true, decide_eq_true_eq,
          UInt32.le_iff_toNat_le] at h
        rcases h with (⟨h, h'⟩ | ⟨h, h'⟩) | ⟨h, h'⟩ <;>
          exact not_isLineBreak_of_value (Nat.le_trans (by decide) h)
            (Nat.lt_of_le_of_lt h' (by decide))
      · have hall : "_@%+=:,./-".toList.all (fun c => !(CodePoint.char c).isLineBreak) = true := by
          decide
        simpa using List.all_eq_true.1 hall c (by simpa using h)

theorem shellWord_of_mem {t : Text} {c : CodePoint} (hc : c ∈ t) (hb : c.isLineBreak = true) :
    ∃ before after, shellWord t = before ++ c :: (after ++ [.char '\'']) := by
  have hquoted : ¬(!t.isEmpty && t.all isShellSafe) = true := by
    intro h
    have hsafe : isShellSafe c = true := List.all_eq_true.1 (Bool.and_eq_true_iff.1 h).2 c hc
    exact absurd (isLineBreak_of_isShellSafe hsafe) (by simp [hb])
  have hquote : c ≠ .char '\'' := by
    rintro rfl
    exact absurd hb (by decide)
  rw [shellWord, if_neg hquoted]
  obtain ⟨before, after, rfl⟩ := List.append_of_mem hc
  simp only [List.flatMap_append, List.flatMap_cons, if_neg hquote, List.append_assoc,
    List.cons_append, List.nil_append]
  exact ⟨_ :: _, _, rfl⟩

theorem isLine_shellWord {t : Text} (h : IsLine t) : IsLine (shellWord t) := by
  unfold shellWord
  split
  · exact h
  · refine isLine_cons.2 ⟨by decide, isLine_append.2 ⟨?_, by decide⟩⟩
    intro c hc
    obtain ⟨d, hd, hcd⟩ := List.mem_flatMap.1 hc
    split at hcd
    · have hquote : IsLine "'\"'\"'" := by decide
      exact hquote c hcd
    · exact h c (by simpa [List.mem_singleton.1 hcd] using hd)

theorem exists_append_joinWith (separator : Text) {l : Text} {ls : List Text} (h : l ∈ ls) :
    ∃ before after, joinWith separator ls = before ++ (l ++ after) := by
  induction ls with
  | nil => cases h
  | cons m ls ih =>
      cases ls with
      | nil =>
          obtain rfl := List.mem_singleton.1 h
          exact ⟨[], [], by simp [joinWith]⟩
      | cons k ls =>
          rw [joinWith, List.intercalate_cons_cons, ← joinWith]
          rcases List.mem_cons.1 h with rfl | h
          · exact ⟨[], separator ++ joinWith separator (k :: ls), by simp⟩
          · obtain ⟨before, after, he⟩ := ih h
            exact ⟨m ++ separator ++ before, after, by rw [he, List.append_assoc _ before]⟩

theorem isLine_joinWith {separator : Text} (hs : IsLine separator) {ls : List Text}
    (h : ∀ l ∈ ls, IsLine l) : IsLine (joinWith separator ls) := by
  induction ls with
  | nil => simp [joinWith, IsLine]
  | cons l ls ih =>
      obtain ⟨hl, hls⟩ := List.forall_mem_cons.1 h
      cases ls with
      | nil => simpa [joinWith] using hl
      | cons m ls =>
          rw [joinWith, List.intercalate_cons_cons]
          exact isLine_append.2 ⟨isLine_append.2 ⟨hl, hs⟩, ih hls⟩

end Text

open Text

theorem failureReport_ne_nil (command : List Text) (detail : Text) :
    failureReport command detail ≠ [] := by
  have hnewline : CodePoint.char '\n' ∈ failureReport command detail :=
    List.mem_append_right _ List.mem_cons_self
  exact List.ne_nil_of_mem hnewline

theorem failureReport_inj {t u detail detail' : Text} {words words' : List Text}
    (h : failureReport (t :: words) detail = failureReport (u :: words') detail') :
    t :: words = u :: words' ∧ detail = detail' := by
  rw [failureReport, failureReport, banner, banner, List.append_assoc, List.append_assoc] at h
  exact commandLine_append_inj (List.append_cancel_left h)

theorem isLine_banner {command : List Text} (h : ∀ word ∈ command, IsLine word) :
    IsLine (banner command) := by
  refine isLine_append.2 ⟨by decide, isLine_joinWith (by decide) ?_⟩
  intro l hl
  obtain ⟨word, hword, rfl⟩ := List.mem_map.1 hl
  exact isLine_shellWord (h word hword)

theorem lines_failureReport {command : List Text} (h : ∀ word ∈ command, IsLine word)
    (detail : Text) : (failureReport command detail).lines = banner command :: detail.lines :=
  lines_append_newline (isLine_banner h) detail

/-- A line break in a word divides the banner, whatever stands under it. -/
theorem lines_failureReport_of_not_isLine {command : List Text} {word : Text}
    (hmem : word ∈ command) (h : ¬IsLine word) :
    ∃ first second rest, ∀ detail,
      (failureReport command detail).lines = first :: second :: (rest ++ detail.lines) := by
  obtain ⟨c, hc, hb⟩ : ∃ c ∈ word, c.isLineBreak = true := by
    simpa [IsLine] using h
  obtain ⟨t, u, hword⟩ := shellWord_of_mem hc hb
  obtain ⟨before, after, hcommand⟩ :=
    exists_append_joinWith " " (List.mem_map_of_mem (f := shellWord) hmem)
  have hlength : 2 ≤ (lines (banner command ++ [.char '\n'])).length := by
    have hquote : CodePoint.isLineBreak (.char '\'') = false := by decide
    have := two_le_length_lines hb (ofString "Command failed: " ++ (before ++ t)) u hquote
      (after ++ [.char '\n'])
    simpa [banner, commandLine, hcommand, hword] using this
  have hlines := lines_append_newline_append (banner command)
  generalize lines (banner command ++ [.char '\n']) = ls at hlength hlines
  obtain ⟨first, ls, rfl⟩ := List.exists_cons_of_length_pos (Nat.lt_of_succ_lt hlength)
  obtain ⟨second, rest, rfl⟩ := List.exists_cons_of_length_pos (Nat.lt_of_succ_lt_succ hlength)
  exact ⟨first, second, rest, hlines⟩

namespace Report

theorem classify_congr {r s : Text} (h : r.lines.tail = s.lines.tail) :
    classify r = classify s := by
  unfold classify
  match r.lines, s.lines, h with
  | [], [], _ | [], [_], _ | [_], [], _ | [_], [_], _ => rfl
  | _ :: line :: trace, _ :: _ :: _, h =>
      cases h
      rfl

theorem ofLine_cases (line : Text) :
    (∃ m, ∀ trace, ofLine line trace = .static m) ∨
      (∃ m, ∀ trace, ofLine line trace = .runtime m trace) ∨
      ∀ trace, ofLine line trace = .unrecognized line := by
  unfold ofLine
  cases staticMark.isPrefixOf? line with
  | some m => exact .inl ⟨m, fun _ => rfl⟩
  | none =>
      cases runtimeMark.isPrefixOf? line with
      | some m => exact .inr (.inl ⟨m, fun _ => rfl⟩)
      | none => exact .inr (.inr fun _ => rfl)

theorem collect_append (finding : Text → Except NumeralTooLong Finding) (e : Extraction)
    (ls ms : List Text) :
    collect finding e (ls ++ ms) =
      (collect finding e ls).bind fun e' => collect finding e' ms := by
  induction ls generalizing e with
  | nil => rfl
  | cons l ls ih =>
      rw [List.cons_append, collect, collect]
      cases finding l with
      | error cause => rfl
      | ok f => exact ih (e.add f)

/-- A command's failure reports are read as if their banner were any one line. -/
def ReadByDetail {α : Type} (read : Text → α) (command : List Text) : Prop :=
  ∀ detail, read (failureReport command detail) = read (("x\n" : Text) ++ detail)

theorem readByDetail_classify {command : List Text} (h : ∀ word ∈ command, IsLine word) :
    ReadByDetail classify command := by
  intro detail
  refine classify_congr ?_
  have hx : lines (("x\n" : Text) ++ detail) = ofString "x" :: lines detail :=
    lines_append_newline (l := "x") (by decide) detail
  rw [lines_failureReport h, hx, List.tail_cons, List.tail_cons]

theorem readByDetail_extract {command : List Text} (h : ReadByDetail classify command) :
    ReadByDetail extract command := by
  intro detail
  rw [extract, extract, h detail]

def locatedDetail : Text := "STATIC ERROR: f:1:1"

theorem extract_locatedDetail :
    ∃ found, found ≠ [] ∧ extract (("x\n" : Text) ++ locatedDetail) = .ok ⟨[], found⟩ := by
  refine ⟨_, ?_, rfl⟩
  exact List.cons_ne_nil _ _

theorem isLine_of_readByDetail_extract {command : List Text} (h : ReadByDetail extract command) :
    ∀ word ∈ command, IsLine word := by
  intro word hmem
  by_contra hword
  obtain ⟨first, second, rest, hlines⟩ := lines_failureReport_of_not_isLine hmem hword
  obtain ⟨found, hfound, hextract⟩ := extract_locatedDetail
  have hempty : extract (failureReport command []) = .ok ⟨[], []⟩ := h []
  have hlocated := (h locatedDetail).trans hextract
  rw [extract, classify_of_lines (hlines _)] at hempty hlocated
  rcases ofLine_cases second with ⟨m, hm⟩ | ⟨m, hm⟩ | hm
  · rw [hm] at hempty hlocated
    obtain rfl : [] = found := by simpa using hempty.symm.trans hlocated
    exact hfound rfl
  · rw [hm] at hempty hlocated
    -- the detail stands in the trace, where it is noticed as a line that cannot be located
    change collect (traceFinding m) _ (rest ++ []) = _ at hempty
    change collect (traceFinding m) _ (rest ++ [locatedDetail]) = _ at hlocated
    rw [List.append_nil] at hempty
    rw [collect_append, hempty] at hlocated
    cases hlocated
  · rw [hm] at hlocated
    cases hlocated
    exact hfound rfl

theorem readByDetail_iff (command : List Text) :
    (ReadByDetail classify command ↔ ∀ word ∈ command, IsLine word) ∧
      (ReadByDetail extract command ↔ ∀ word ∈ command, IsLine word) :=
  ⟨⟨fun h => isLine_of_readByDetail_extract (readByDetail_extract h), readByDetail_classify⟩,
    ⟨isLine_of_readByDetail_extract, fun h => readByDetail_extract (readByDetail_classify h)⟩⟩

def dividedCommand : List Text := ["jsonnet", "--ext-str", "note=first\nsecond", "main.jsonnet"]

theorem classify_failureReport_dividedCommand :
    classify (failureReport dividedCommand "RUNTIME ERROR: boom") =
        .unrecognized "second' main.jsonnet" ∧
      classify "x\nRUNTIME ERROR: boom" = .runtime "boom" [] ∧
      ¬ReadByDetail classify dividedCommand := by
  have hdivided : classify (failureReport dividedCommand "RUNTIME ERROR: boom") =
      .unrecognized "second' main.jsonnet" := by decide
  have hwhole : classify "x\nRUNTIME ERROR: boom" = .runtime "boom" [] := by decide
  refine ⟨hdivided, hwhole, fun h => ?_⟩
  cases hdivided.symm.trans ((h "RUNTIME ERROR: boom").trans hwhole)

end Report

end JsonnetPreview
