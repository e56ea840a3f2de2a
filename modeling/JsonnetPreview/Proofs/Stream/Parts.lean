import JsonnetPreview.Preview.Reformat
import JsonnetPreview.Proofs.Json.Whole

namespace JsonnetPreview

theorem CodePoint.isBlank_of_isSpace {c : CodePoint} (h : Json.isSpace c) : c.isBlank := by
  simp only [Json.isSpace, Bool.or_eq_true, decide_eq_true_eq] at h
  rcases h with ((rfl | rfl) | rfl) | rfl <;> rfl

theorem Stream.head_of_mem_documents {raw part : Text} (h : part ∈ documents raw) :
    ∃ c r, part = c :: r ∧ ¬ Json.isSpace c := by
  obtain ⟨hmem, hne⟩ := List.mem_filter.1 h
  obtain ⟨lines, -, hpart⟩ := List.mem_map.1 hmem
  cases part with
  | nil => cases hne
  | cons c r =>
      have hblank := Text.not_isBlank_of_trim_eq_cons hpart
      refine ⟨c, r, rfl, fun hc => ?_⟩
      rw [CodePoint.isBlank_of_isSpace hc] at hblank
      cases hblank

namespace Payload

theorem map_read_eq_iff [Stack] {ts : List Text} {items : List Json} :
    ts.map Json.read = items.map .ok ↔ List.Forall₂ Json.Reads ts items := by
  rw [← List.forall₂_eq_eq_eq, List.forall₂_map_left_iff, List.forall₂_map_right_iff]
  simp only [Json.read_eq_ok_iff]

theorem reformat_eq_ok_iff [Stack] {raw out : Text} {f : OutputFormat} :
    (rendered raw).reformat f.name = .ok out ↔
      ∃ v, readRendered raw = .ok v ∧ f.write v = .ok out := by
  rw [reformat, OutputFormat.ofName?_name]
  cases readRendered raw with
  | error e => cases e <;> simp
  | ok v =>
      have hmap : (f.write v).mapError ReformatError.nestedTooDeep = .ok out ↔
          f.write v = .ok out := by
        cases f.write v <;> simp [Except.mapError]
      simpa using hmap

/-- A stream that is shown is shown as a list. Its items are the values of the parts, one for each,
exactly if every part closes what it opens and has no comma outside of that. -/
theorem reformat_parts [Stack] {raw out : Text} {f : OutputFormat}
    (hraw : Stream.separator.isPrefixOf raw) (h : (rendered raw).reformat f.name = .ok out) :
    ∃ items, readRendered raw = .ok (.arr items) ∧ f.write (.arr items) = .ok out ∧
      ((Stream.documents raw).map Json.read = items.map .ok ↔
        ∀ part ∈ Stream.documents raw, Json.isWhole part) := by
  obtain ⟨v, hread, hwrite⟩ := reformat_eq_ok_iff.1 h
  have hjoin : Json.read (Json.arrayText (Stream.documents raw)) = .ok v := by
    rwa [readRendered, if_pos hraw] at hread
  obtain ⟨items, rfl⟩ := Json.arr_of_read_arrayText hjoin
  refine ⟨items, hread, hwrite, map_read_eq_iff.trans ?_⟩
  exact Json.forall₂_reads_iff (fun part hpart => Stream.head_of_mem_documents hpart) hjoin

theorem reformat_parts_sample :
    (rendered "---\n[1,\n2]\n---\n3\n").reformat "json" =
        .ok "[\n  [\n    1,\n    2\n  ],\n  3\n]" ∧
      ∃ items, readRendered "---\n[1,\n2]\n---\n3\n" = .ok (.arr items) ∧
        (Stream.documents "---\n[1,\n2]\n---\n3\n").map Json.read = items.map .ok := by
  have hshown : (rendered "---\n[1,\n2]\n---\n3\n").reformat OutputFormat.json.name =
      .ok "[\n  [\n    1,\n    2\n  ],\n  3\n]" := by decide +kernel
  obtain ⟨items, hread, -, hparts⟩ := reformat_parts (by decide) hshown
  exact ⟨hshown, items, hread, hparts.2 (by decide)⟩

theorem reformat_divided :
    Stream.documents "---\n[1\n---\n2]\n" = ["[1", "2]"] ∧
      (∀ v, Json.read "[1" ≠ .ok v) ∧ (∀ v, Json.read "2]" ≠ .ok v) ∧
      (rendered "---\n[1\n---\n2]\n").reformat "json" =
        .ok "[\n  [\n    1,\n    2\n  ]\n]" :=
  ⟨rfl, nofun, nofun, by decide +kernel⟩

end Payload
end JsonnetPreview
