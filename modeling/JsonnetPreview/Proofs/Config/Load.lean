import JsonnetPreview.Config.Store
import JsonnetPreview.Proofs.Json.Newlines
import JsonnetPreview.Proofs.Text.Utf8
import JsonnetPreview.Proofs.World.FileTree

namespace JsonnetPreview.Config

open Json (read)

/-- The settings that a content of the file stands for. -/
inductive OfContent [Stack] : Octets → Config → Prop
  | object {t : Text} {members : List (Text × Json)} (ht : t.IsScalar)
      (h : read t = .ok (.obj members)) :
      OfContent (Utf8.encode t) { settings := defaults.settings.setAll members }
  | other {t : Text} {v : Json} (ht : t.IsScalar) (h : read t = .ok v)
      (hv : ∀ members, v ≠ .obj members) : OfContent (Utf8.encode t) defaults
  | malformed {t : Text} {m : Json.Malformed} (ht : t.IsScalar)
      (h : read t = .error (.malformed m)) : OfContent (Utf8.encode t) defaults

/-- The contents that are not survived. -/
inductive Refused [Stack] : Octets → Prop
  | undecodable {content : Octets} (h : ∀ t, t.IsScalar → Utf8.encode t ≠ content) :
      Refused content
  | numeralTooLong {t : Text} {cause : NumeralTooLong} (ht : t.IsScalar)
      (h : read t = .error (.numeralTooLong cause)) : Refused (Utf8.encode t)
  | nestedTooDeep {t : Text} {cause : Json.NestedTooDeep} (ht : t.IsScalar)
      (h : read t = .error (.nestedTooDeep cause)) : Refused (Utf8.encode t)

def ofReading : Except Json.ReadError Json → Config
  | .ok v => ofJson v
  | .error _ => defaults

theorem OfContent.exists_text [Stack] {content : Octets} {c : Config} (h : OfContent content c) :
    ∃ t, t.IsScalar ∧ Utf8.encode t = content ∧ c = ofReading (read t) ∧
      ∀ e, read t = .error e → ∃ m, e = .malformed m := by
  cases h with
  | @object t members ht h => exact ⟨t, ht, rfl, by rw [h]; rfl, by simp [h]⟩
  | @other t v ht h hv =>
      refine ⟨t, ht, rfl, ?_, by simp [h]⟩
      rw [h]
      cases v with
      | obj members => exact absurd rfl (hv members)
      | null | bool | int | float | str | arr => rfl
  | @malformed t m ht h => exact ⟨t, ht, rfl, by rw [h]; rfl, by simp [h]⟩

theorem OfContent.unique [Stack] {content : Octets} {c c' : Config} (h : OfContent content c)
    (h' : OfContent content c') : c = c' := by
  obtain ⟨t, ht, rfl, rfl, -⟩ := h.exists_text
  obtain ⟨u, hu, he, rfl, -⟩ := h'.exists_text
  rw [Utf8.encode_inj hu ht he]

theorem OfContent.not_refused [Stack] {content : Octets} {c : Config} (h : OfContent content c) :
    ¬ Refused content := by
  obtain ⟨t, ht, rfl, -, hmalformed⟩ := h.exists_text
  generalize hcontent : Utf8.encode t = content
  intro hrefused
  cases hrefused with
  | undecodable h => exact h t ht hcontent
  | numeralTooLong hu h | nestedTooDeep hu h =>
      obtain ⟨m, hm⟩ := hmalformed _ (Utf8.encode_inj ht hu hcontent ▸ h)
      cases hm

variable {w w' : World} {c : Config} {content : Octets}

theorem place_not_mem_wayTo (w : World) : place w ∉ FileTree.wayTo (folder w) := by
  intro h
  obtain ⟨n, -, hn⟩ := List.mem_map.1 h
  have hlength := congrArg List.length hn
  simp only [place, List.length_take, List.length_append, List.length_singleton] at hlength
  omega

theorem loadFile_cases [Stack] (hfile : w.files.node? (place w) = some (.file content)) :
    (∃ c w', loadFile w = .ok (c, w') ∧ OfContent content c) ∨
      ∃ fault, loadFile w = .error fault ∧ Refused content := by
  simp only [loadFile, hfile, Octets.text]
  cases hdecode : Utf8.decode content with
  | error e =>
      refine .inr ⟨.undecodable e, rfl, .undecodable fun t ht he => ?_⟩
      rw [Utf8.decode_eq_ok_iff.2 ⟨he, ht⟩] at hdecode
      cases hdecode
  | ok t =>
      obtain ⟨rfl, ht⟩ := Utf8.decode_eq_ok_iff.1 hdecode
      simp only [Except.map]
      -- What is read are uniform line ends, which change nothing but the places of complaints.
      cases hread : read t with
      | ok v =>
          rw [(Json.read_unifyNewlines_iff (x := .ok v) nofun).2 hread]
          refine .inl ⟨_, _, rfl, ?_⟩
          cases v with
          | obj members => exact .object ht hread
          | null | bool | int | float | str | arr => exact .other ht hread nofun
      | error e =>
          cases e with
          | malformed m =>
              obtain ⟨m', hm'⟩ := Json.exists_malformed_unifyNewlines hread
              rw [hm']
              exact .inl ⟨_, _, rfl, .malformed ht hread⟩
          | numeralTooLong cause =>
              rw [(Json.read_unifyNewlines_iff (x := .error (.numeralTooLong cause)) nofun).2 hread]
              exact .inr ⟨_, rfl, .numeralTooLong ht hread⟩
          | nestedTooDeep cause =>
              rw [(Json.read_unifyNewlines_iff (x := .error (.nestedTooDeep cause)) nofun).2 hread]
              exact .inr ⟨_, rfl, .nestedTooDeep ht hread⟩

theorem load_of_clear [Stack] (hclear : w.files.Clear (folder w)) :
    load w = loadFile { w with files := w.files.makeDirectories (folder w) } := by
  rw [load, FileTree.ensureDirectory_eq_ok_iff.2 ⟨hclear, rfl⟩]

theorem node?_place_makeDirectories (w : World) :
    (w.files.makeDirectories (folder w)).node? (place w) = w.files.node? (place w) := by
  rw [FileTree.node?_makeDirectories, if_neg fun h => place_not_mem_wayTo w h.2]

theorem loadFile_of_absent [Stack] (h : w.files.node? (place w) = none) :
    loadFile w = .ok (defaults, w) := by
  rw [loadFile, h]

theorem load_of_absent [Stack] (hclear : w.files.Clear (folder w))
    (hnone : w.files.node? (place w) = none) : ∃ w', load w = .ok (defaults, w') := by
  rw [load_of_clear hclear]
  exact ⟨_, loadFile_of_absent ((node?_place_makeDirectories w).trans hnone)⟩

theorem load_cases [Stack] (hclear : w.files.Clear (folder w))
    (hfile : w.files.node? (place w) = some (.file content)) :
    (∃ c w', load w = .ok (c, w') ∧ OfContent content c) ∨
      ∃ fault, load w = .error fault ∧ Refused content := by
  rw [load_of_clear hclear]
  exact loadFile_cases ((node?_place_makeDirectories w).trans hfile)

theorem load_of_ofContent [Stack] (hclear : w.files.Clear (folder w))
    (hfile : w.files.node? (place w) = some (.file content)) (hc : OfContent content c) :
    ∃ w', load w = .ok (c, w') := by
  rcases load_cases hclear hfile with ⟨c', w', hload, hc'⟩ | ⟨fault, -, hrefused⟩
  · exact ⟨w', hc.unique hc' ▸ hload⟩
  · exact absurd hrefused hc.not_refused

/-- Where no file stands in the way of the folder, the settings are loaded if there is no file in
it, and for every content of the file but those that are refused. -/
theorem load_iff [Stack] (hclear : w.files.Clear (folder w)) :
    (w.files.node? (place w) = none → ∃ w', load w = .ok (defaults, w')) ∧
      ∀ content, w.files.node? (place w) = some (.file content) →
        (∀ c, (∃ w', load w = .ok (c, w')) ↔ OfContent content c) ∧
          ((∃ fault, load w = .error fault) ↔ Refused content) := by
  refine ⟨load_of_absent hclear, fun content hfile =>
    ⟨fun c => ⟨?_, load_of_ofContent hclear hfile⟩, ?_⟩⟩
  · rintro ⟨w', hload⟩
    rcases load_cases hclear hfile with ⟨c', w'', hload', hc'⟩ | ⟨fault, hload', -⟩
    · rw [hload] at hload'
      cases hload'
      exact hc'
    · rw [hload] at hload'
      cases hload'
  · rcases load_cases hclear hfile with ⟨c, w', hload, hc⟩ | ⟨fault, hload, hrefused⟩
    · rw [hload]
      exact iff_of_false nofun hc.not_refused
    · exact iff_of_true ⟨fault, hload⟩ hrefused

def storedWorld (content : Octets) : World where
  files :=
    { nodes := [([Text.ofString ".jsonnetpeek"], .directory),
        ([Text.ofString ".jsonnetpeek", Text.ofString "config.json"], .file content)] }
  directory := ⟨.root, []⟩
  home := ⟨.root, []⟩
  programs := ["jsonnet"]
  outcomes := fun _ => .exited 0 "[]" ""

theorem load_iff_storedWorld :
    ∃ w', load (storedWorld (Utf8.encode "\x7b\"timeout\": 5\x7d")) =
      .ok ({ settings := defaults.settings.setAll [("timeout", .int 5)] }, w') := by
  have hclear : (storedWorld (Utf8.encode "\x7b\"timeout\": 5\x7d")).files.Clear
      [Text.ofString ".jsonnetpeek"] := by
    intro p hp
    have hp' : p ∈ [[Text.ofString ".jsonnetpeek"]] := hp
    cases List.mem_singleton.1 hp'
    exact ⟨nofun, rfl⟩
  exact (((load_iff hclear).2 _ rfl).1 _).2 (.object (Text.isScalar_map _) rfl)

theorem load_storedWorld_undecodable :
    (storedWorld [0xFF]).files.node? (place (storedWorld [0xFF])) = some (.file [0xFF]) ∧
      load (storedWorld [0xFF]) = .error (.undecodable ⟨.invalidStart, 0, 1, 0xFF⟩) :=
  ⟨rfl, rfl⟩

end JsonnetPreview.Config
