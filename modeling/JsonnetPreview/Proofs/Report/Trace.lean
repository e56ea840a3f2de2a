import JsonnetPreview.Proofs.Report.Grouping
import JsonnetPreview.Proofs.Report.Position
import JsonnetPreview.Proofs.Text.Lines
import JsonnetPreview.Report.Extract
import Mathlib.Data.List.DropRight

namespace JsonnetPreview.Report

open DiagnosticSet Text

theorem Frame.read?_append {indent file : Text} (hindent : IsBlank indent) (hne : file ≠ [])
    (hcolon : .char ':' ∉ file) (hhead : ∀ c ∈ file.head?, c.isBlank = false) (rest : Text) :
    Frame.read? (indent ++ (file ++ .char ':' :: rest)) = some ⟨indent, file⟩ := by
  obtain ⟨c, r, rfl⟩ := List.exists_cons_of_ne_nil hne
  have hc : c.isBlank = false := hhead c rfl
  have hdrop : (indent ++ (c :: r ++ .char ':' :: rest)).dropWhile CodePoint.isBlank =
      c :: r ++ .char ':' :: rest :=
    (trimStart_append hindent _).trans (trimStart_cons_of_not_isBlank hc)
  have htake : (indent ++ (c :: r ++ .char ':' :: rest)).takeWhile CodePoint.isBlank = indent := by
    rw [List.takeWhile_append_of_pos hindent]
    simp [hc]
  have hbreak : breakAt (· = .char ':') (c :: r ++ .char ':' :: rest) = (c :: r, some rest) :=
    breakAt_append_cons
      (fun x hx => decide_eq_false fun h : x = .char ':' => hcolon (h ▸ hx)) (by decide) _
  rw [Frame.read?, hdrop, hbreak, htake]

theorem isFrame_iff (line : Text) :
    isFrame line = true ↔ trim line ≠ [] ∧ ¬ phaseMark <+: trim line := by
  simp [isFrame, ← List.isPrefixOf_iff_prefix]

/-- A frame, with everything that makes its line readable. -/
structure TraceFrame where
  file : Text
  shape : Shape
  numerals : List Numeral
  range : LocationRange
  tail : Text
  file_ne_nil : file ≠ []
  colon_not_mem : .char ':' ∉ file
  isLine_file : IsLine file
  not_isBlank_head : ∀ c ∈ file.head?, c.isBlank = false
  not_phase : ¬ phaseMark <+: file
  denotes : shape.Denotes numerals range
  isLine_tail : IsLine tail
  isBlank_tail : ∀ c ∈ tail.head?, c.isBlank = true

/-- A line between the frames: a blank one, one that names a phase, or one without a file. -/
structure Interlude where
  line : Text
  isLine : IsLine line
  isIgnored : trim line = [] ∨ phaseMark <+: trim line ∨ Frame.read? line = none

inductive TraceItem where
  | frame (f : TraceFrame)
  | interlude (i : Interlude)

namespace TraceFrame

def place (f : TraceFrame) : Text := f.shape.write f.numerals ++ f.tail

def line (f : TraceFrame) : Text := .char '\t' :: (f.file ++ .char ':' :: f.place)

def located (message : Text) (f : TraceFrame) : Text × Diagnostic :=
  (f.file, { range := f.range.toRange, message })

theorem isLine_line (f : TraceFrame) : IsLine f.line := by
  refine isLine_cons.2 ⟨by decide, isLine_append.2 ⟨f.isLine_file, isLine_cons.2 ⟨by decide, ?_⟩⟩⟩
  exact isLine_append.2
    ⟨fun c hc => not_isLineBreak_of_not_isBlank (f.denotes.not_isBlank c hc), f.isLine_tail⟩

theorem trimStart_line (f : TraceFrame) : trimStart f.line = f.file ++ .char ':' :: f.place := by
  obtain ⟨c, r, hfile⟩ := List.exists_cons_of_ne_nil f.file_ne_nil
  have hc : c.isBlank = false := f.not_isBlank_head c (by simp [hfile])
  have htab : trimStart f.line = trimStart (f.file ++ .char ':' :: f.place) :=
    List.dropWhile_cons_of_pos (by decide)
  rw [htab, hfile]
  exact trimStart_cons_of_not_isBlank hc

theorem not_phase_prefix (f : TraceFrame) : ¬ phaseMark <+: f.file ++ .char ':' :: f.place := by
  intro h
  rcases List.prefix_or_prefix_of_prefix h (List.prefix_append f.file _) with hp | ⟨s, hs⟩
  · exact f.not_phase hp
  · rw [← hs, List.prefix_append_right_inj] at h
    cases s with
    | nil => exact f.not_phase ⟨[], by simpa using hs.symm⟩
    | cons c s =>
        obtain rfl : c = .char ':' := (List.cons_prefix_cons.1 h).1
        have hcolon : CodePoint.char ':' ∈ phaseMark := by simp [← hs]
        exact absurd hcolon (by decide)

theorem isFrame_line (f : TraceFrame) : isFrame f.line = true := by
  have htrim :
      trim f.line = List.rdropWhile CodePoint.isBlank (f.file ++ .char ':' :: f.place) := by
    rw [trim, f.trimStart_line]
    rfl
  have hne : trim f.line ≠ [] := by
    rw [htrim, ne_eq, List.rdropWhile_eq_nil_iff]
    exact fun h => absurd (h (.char ':') (by simp)) (by decide)
  have hphase : ¬ phaseMark <+: trim f.line := fun h =>
    f.not_phase_prefix (h.trans (htrim ▸ List.rdropWhile_prefix _ _))
  rw [isFrame_iff]
  exact ⟨hne, hphase⟩

theorem read?_line (f : TraceFrame) : Frame.read? f.line = some ⟨[.char '\t'], f.file⟩ := by
  have hindent : IsBlank [.char '\t'] := List.forall_mem_singleton.2 (by decide)
  exact Frame.read?_append hindent f.file_ne_nil f.colon_not_mem f.not_isBlank_head f.place

theorem traceFinding_line (f : TraceFrame) (message : Text) :
    traceFinding message f.line = .ok (.located f.file { range := f.range.toRange, message }) := by
  have hdrop : f.line.drop (Frame.indentedFile ⟨[.char '\t'], f.file⟩).length =
      .char ':' :: f.place := by
    change ((.char '\t' :: f.file) ++ .char ':' :: f.place).drop _ = _
    exact List.drop_left
  have hrange : LocationRange.read? (.char ':' :: f.place) = .ok (some f.range) :=
    f.denotes.read?_write (.of_isBlank f.isBlank_tail)
  rw [traceFinding, if_pos f.isFrame_line, f.read?_line]
  simp only [hdrop, hrange]
  rfl

end TraceFrame

theorem Interlude.exists_add (i : Interlude) (message : Text) :
    ∃ finding, traceFinding message i.line = .ok finding ∧
      ∀ e : Extraction, (e.add finding).found = e.found := by
  by_cases hf : isFrame i.line = true
  · have hread : Frame.read? i.line = none := by
      obtain ⟨hne, hphase⟩ := (isFrame_iff i.line).1 hf
      exact (i.isIgnored.resolve_left hne).resolve_left hphase
    refine ⟨.odd (.noFileInFrame i.line), ?_, fun e => rfl⟩
    rw [traceFinding, if_pos hf, hread]
  · exact ⟨.nothing, if_neg hf, fun e => rfl⟩

namespace TraceItem

def line : TraceItem → Text
  | frame f => f.line
  | interlude i => i.line

def frame? : TraceItem → Option TraceFrame
  | frame f => some f
  | interlude _ => none

theorem isLine_line : (item : TraceItem) → IsLine item.line
  | frame f => f.isLine_line
  | interlude i => i.isLine

end TraceItem

/-- What the frames among the lines of a trace say. -/
def frames (message : Text) (items : List TraceItem) : List (Text × Diagnostic) :=
  (items.filterMap TraceItem.frame?).map (TraceFrame.located message)

theorem collect_trace (message : Text) (e : Extraction) (items : List TraceItem) :
    ∃ notices, collect (traceFinding message) e (items.map TraceItem.line) =
      .ok ⟨notices, addAll e.found (frames message items)⟩ := by
  induction items generalizing e with
  | nil => exact ⟨e.notices, rfl⟩
  | cons item items ih =>
      cases item with
      | frame f =>
          obtain ⟨notices, h⟩ := ih (e.add (.located f.file { range := f.range.toRange, message }))
          refine ⟨notices, ?_⟩
          rw [List.map_cons, TraceItem.line, collect, f.traceFinding_line]
          exact h
      | interlude i =>
          obtain ⟨finding, hfinding, hfound⟩ := i.exists_add message
          obtain ⟨notices, h⟩ := ih (e.add finding)
          refine ⟨notices, ?_⟩
          rw [List.map_cons, TraceItem.line, collect, hfinding]
          rw [hfound] at h
          exact h

theorem collect_lines_joinWith (message : Text) (e : Extraction) {ls : List Text}
    (h : ∀ l ∈ ls, IsLine l) : collect (traceFinding message) e (lines (joinWith "\n" ls)) =
      collect (traceFinding message) e ls := by
  induction ls generalizing e with
  | nil => rfl
  | cons l ls ih =>
      obtain ⟨hl, hls⟩ := List.forall_mem_cons.1 h
      cases ls with
      | nil =>
          rw [joinWith, List.intercalate_singleton]
          cases l with
          | nil => rfl
          | cons c l => rw [lines_of_forall_not_isLineBreak (by simp) hl]
      | cons m ls =>
          rw [joinWith_cons_cons, lines_append_newline hl, collect, collect]
          cases traceFinding message l with
          | error cause => rfl
          | ok finding => exact ih (e.add finding) hls

def runtimeReport (banner message : Text) (items : List TraceItem) : Text :=
  joinWith "\n" (banner :: (runtimeMark ++ message) :: items.map TraceItem.line)

theorem classify_runtimeReport {banner message : Text} (hb : IsLine banner) (hm : IsLine message)
    (items : List TraceItem) : classify (runtimeReport banner message items) =
      .runtime message (lines (joinWith "\n" (items.map TraceItem.line))) := by
  have hmark : IsLine (runtimeMark ++ message) := isLine_append.2 ⟨by decide, hm⟩
  rw [runtimeReport,
    classify_of_lines (lines_joinWith_cons_cons hb hmark (by simp [runtimeMark, ofString]) _)]
  rfl

theorem extract_runtimeReport {banner message : Text} (hb : IsLine banner) (hm : IsLine message)
    (items : List TraceItem) : ∃ notices, extract (runtimeReport banner message items) =
      .ok ⟨notices, grouped (frames message items)⟩ := by
  obtain ⟨notices, h⟩ := collect_trace message ⟨[], []⟩ items
  refine ⟨notices, ?_⟩
  have hlines : ∀ l ∈ items.map TraceItem.line, IsLine l := by
    simpa using fun item _ => item.isLine_line
  rw [extract, classify_runtimeReport hb hm]
  simp only [collect_lines_joinWith message _ hlines, h, addAll_nil]

def sampleTrace : List TraceItem :=
  [.frame
    { file := "lib.libsonnet", shape := .line, numerals := [[3], [5], [9]]
      range := ⟨⟨3, 5⟩, ⟨3, 9⟩⟩, tail := "\tfunction <f>"
      file_ne_nil := by decide, colon_not_mem := by decide, isLine_file := by decide
      not_isBlank_head := by decide, not_phase := by decide, denotes := ⟨by decide, rfl, rfl⟩
      isLine_tail := by decide, isBlank_tail := by decide },
   .interlude ⟨"  ...  ", by decide, .inr (.inr (by decide))⟩,
   .frame
    { file := "main file.jsonnet", shape := .parenthesized, numerals := [[1], [1, 0], [2], [2]]
      range := ⟨⟨1, 10⟩, ⟨2, 2⟩⟩, tail := []
      file_ne_nil := by decide, colon_not_mem := by decide, isLine_file := by decide
      not_isBlank_head := by decide, not_phase := by decide, denotes := ⟨by decide, rfl, rfl⟩
      isLine_tail := by decide, isBlank_tail := by decide },
   .frame
    { file := "lib.libsonnet", shape := .point, numerals := [[7], [1]], range := ⟨⟨7, 1⟩, ⟨7, 1⟩⟩
      tail := "\t", file_ne_nil := by decide, colon_not_mem := by decide
      isLine_file := by decide, not_isBlank_head := by decide, not_phase := by decide
      denotes := ⟨by decide, rfl, rfl⟩, isLine_tail := by decide, isBlank_tail := by decide },
   .interlude ⟨"\tDuring manifestation\t", by decide, .inr (.inl (by decide))⟩]

theorem extract_runtimeReport_two_files :
    IsLine "Command failed: jsonnet main.jsonnet" ∧ IsLine "out of range: 3" ∧ ∃ notices,
      extract (runtimeReport "Command failed: jsonnet main.jsonnet" "out of range: 3" sampleTrace) =
        .ok ⟨notices, [("lib.libsonnet", [⟨⟨⟨2, 4⟩, ⟨2, 9⟩⟩, "out of range: 3", .error⟩,
          ⟨⟨⟨6, 0⟩, ⟨6, 1⟩⟩, "out of range: 3", .error⟩]),
          ("main file.jsonnet", [⟨⟨⟨0, 9⟩, ⟨1, 2⟩⟩, "out of range: 3", .error⟩])]⟩ :=
  ⟨by decide, by decide, extract_runtimeReport (by decide) (by decide) sampleTrace⟩

end JsonnetPreview.Report
