import JsonnetPreview.Renderer.Run

namespace JsonnetPreview

namespace FileTree

/-- The path has too many bytes, or one of the names in it has. -/
def IsTooLong (path : Text) : Prop :=
  pathLimit ≤ (Utf8.encode path).length ∨
    ∃ part ∈ writtenParts path, nameLimit < (Utf8.encode part).length

/-- What the system says of a path other than that nothing is there. -/
inductive Objects (t : FileTree) (path : Text) : FileError → Prop
  | tooLong (h : IsTooLong path) : Objects t path .nameTooLong
  | barred {place : Place} {e : FileError} (hbarred : t.barred? place = some e)
      (he : e.isAbsence = false) : Objects t path e

variable {t : FileTree} {e : FileError}

theorem cause_of_locate_eq_error {place : Place} {parts : List Text}
    (h : t.locate place parts = .error e) (he : e.isAbsence = false) :
    (e = .nameTooLong ∧ ∃ part ∈ parts, nameLimit < (Utf8.encode part).length) ∨
      ∃ q, t.barred? q = some e := by
  induction parts generalizing place with
  | nil =>
      rw [locate] at h
      split at h <;> cases h
      cases he
  | cons part rest ih =>
      have hrest {q : Place} (hq : t.locate q rest = .error e) :
          (e = .nameTooLong ∧ ∃ name ∈ part :: rest, nameLimit < (Utf8.encode name).length) ∨
            ∃ q, t.barred? q = some e :=
        (ih hq).imp_left fun ⟨hlong, name, hmem, hname⟩ =>
          ⟨hlong, name, List.mem_cons_of_mem part hmem, hname⟩
      rw [locate] at h
      split at h
      · cases h
        cases he
      · cases h
        cases he
      split at h
      next e' hbarred =>
        cases h
        exact .inr ⟨place, hbarred⟩
      next =>
        split at h
        · exact hrest h
        · split at h
          · exact hrest h
          · split at h
            next hlong =>
              cases h
              exact .inl ⟨rfl, part, List.mem_cons_self, hlong⟩
            next => exact hrest h

theorem objects_of_locateWritten {path : Text}
    (h : t.locateWritten ⟨.root, []⟩ path = .error e) (he : e.isAbsence = false) :
    t.Objects path e := by
  simp only [locateWritten, List.nil_append, ite_self] at h
  split at h
  · cases h
    cases he
  · split at h
    next hlong =>
      cases h
      exact .tooLong (.inl hlong)
    next =>
      rcases cause_of_locate_eq_error h he with ⟨rfl, hlong⟩ | ⟨q, hbarred⟩
      · exact .tooLong (.inr hlong)
      · exact .barred hbarred he

theorem objects_of_probe {p : Path} {fault : FileFault} (h : t.probe p = .error fault) :
    ∃ e, fault = .system e p.toText ∧ t.Objects p.toText e := by
  rw [probe, lookUp] at h
  by_cases hnull : p.toText.contains (.char '\x00')
  · rw [if_pos hnull] at h
    cases h
  rw [if_neg hnull] at h
  cases hlocate : t.locateWritten ⟨.root, []⟩ p.toText with
  | ok found =>
      rw [hlocate] at h
      cases h
  | error e =>
      rw [hlocate] at h
      have hprobe : (if e.isAbsence then .ok none else .error (.system e p.toText) :
          Except FileFault (Option Node)) = .error fault := h
      split at hprobe
      · cases hprobe
      next he =>
        cases hprobe
        exact ⟨e, rfl, objects_of_locateWritten hlocate (by simpa using he)⟩

end FileTree

namespace Ksonnet

variable {files : FileTree} {fault : FileFault}

theorem objects_of_rootAbove {anchor : Anchor} {above : List Text}
    (h : rootAbove files anchor above = .error fault) :
    ∃ e path, fault = .system e path ∧ files.Objects path e := by
  induction above with
  | nil => cases h
  | cons name above ih =>
      rw [rootAbove] at h
      split at h
      · cases hprobe : files.probe ((⟨anchor, above.reverse⟩ : Path).join [appFile]) with
        | ok node =>
            simp only [FileTree.isFile, hprobe] at h
            cases h
        | error e =>
            simp only [FileTree.isFile, hprobe] at h
            cases h
            obtain ⟨e, he, hobjects⟩ := FileTree.objects_of_probe hprobe
            exact ⟨e, _, he, hobjects⟩
      · exact ih h

theorem objects_of_imports {directory : Path} {file : Text}
    (h : imports files directory file = .error fault) :
    ∃ e path, fault = .system e path ∧ files.Objects path e := by
  rw [imports] at h
  cases hroot : findRoot files directory file with
  | ok root =>
      rw [hroot] at h
      cases h
  | error e =>
      rw [hroot] at h
      cases h
      exact objects_of_rootAbove hroot

end Ksonnet

namespace Config

/-- The settings that commands are made from have the kinds that they are described with. Nothing is
asked of a setting that counts as not given, but something has to be run. -/
structure IsTyped (c : Config) : Prop where
  executable : ∃ name, (c.get? executable).getD (.str "jsonnet") = .str name
  kubecfg : (c.get kubecfgExecutable).isGiven → ∃ name, c.get kubecfgExecutable = .str name
  libraries : (c.get libraryPaths).isGiven → ∃ items, c.get libraryPaths = .arr items
  externals : c.given = none → (c.get externals).isGiven → ∃ members, c.get externals = .obj members
  folder : (c.get workspaceFolder).isGiven → ∃ folder, c.get workspaceFolder = .str folder

variable {c : Config}

theorem IsTyped.workspaceRoot (h : c.IsTyped) (directory : Path) :
    ∃ root, c.workspaceRoot directory = .str root := by
  by_cases hgiven : (c.get workspaceFolder).isGiven
  · obtain ⟨folder, hfolder⟩ := h.folder hgiven
    exact ⟨folder, (if_pos hgiven).trans hfolder⟩
  · exact ⟨directory.toText, if_neg hgiven⟩

theorem IsTyped.exists_libraries (h : c.IsTyped) (directory : Path) :
    ∃ paths, c.libraries directory = .ok paths := by
  obtain ⟨root, hroot⟩ := h.workspaceRoot directory
  obtain ⟨items, hitems⟩ : ∃ items, elementsOf (c.get libraryPaths) = .ok items := by
    rw [elementsOf]
    by_cases hgiven : (c.get libraryPaths).isGiven
    · obtain ⟨items, hitems⟩ := h.libraries hgiven
      exact ⟨items, by rw [if_pos hgiven, hitems]; rfl⟩
    · exact ⟨[], by rw [if_neg hgiven]⟩
  exact ⟨_, by rw [Config.libraries, hitems, hroot]; rfl⟩

theorem IsTyped.exists_externalVariables (h : c.IsTyped) :
    ∃ table, c.externalVariables = .ok table := by
  rw [externalVariables]
  cases hgiven : c.given with
  | some table => exact ⟨table, rfl⟩
  | none =>
      by_cases hvalue : (c.get Config.externals).isGiven
      · obtain ⟨members, hmembers⟩ := h.externals hgiven hvalue
        exact ⟨_, by rw [hmembers]; rfl⟩
      · have hempty : elementsOf (c.get Config.externals) = .ok [] := by
          rw [elementsOf, if_neg hvalue]
        simp only [variablesIn]
        split
        · exact ⟨_, rfl⟩
        · exact ⟨_, by rw [hempty]; rfl⟩

end Config

namespace Renderer

/-- The programs are named by strings. -/
structure IsNamed (r : Renderer) : Prop where
  executable : ∃ name, r.executable = .str name
  kubecfg : r.kubecfg.isGiven → ∃ name, r.kubecfg = .str name

theorem isNamed_ofConfig {c : Config} (h : c.IsTyped) (w : World) : (ofConfig c w).1.IsNamed where
  executable := h.executable
  kubecfg := by
    intro hgiven
    simp only [ofConfig, withExecutable] at hgiven ⊢
    split at hgiven
    · split
      · exact ⟨kubecfgName, rfl⟩
      next hmissing => simp [hmissing, Json.isGiven] at hgiven
    · exact h.kubecfg hgiven

theorem IsNamed.withExecutable {r : Renderer} (h : r.IsNamed) (name : Text) (w : World) :
    (r.withExecutable (.str name) w).1.IsNamed where
  executable := ⟨name, rfl⟩
  kubecfg := h.kubecfg

variable {c : Config} {w : World} {file : Text}

theorem exists_arguments (hc : c.IsTyped) {imports : List (Text × Text)}
    (h : Ksonnet.imports w.files w.directory file = .ok imports) :
    ∃ words, arguments c w file = .ok words := by
  obtain ⟨paths, hpaths⟩ := hc.exists_libraries w.directory
  obtain ⟨table, htable⟩ := hc.exists_externalVariables
  exact ⟨_, by rw [arguments, hpaths, htable, h]; rfl⟩

theorem arguments_eq_error (hc : c.IsTyped) {fault : FileFault}
    (h : Ksonnet.imports w.files w.directory file = .error fault) :
    arguments c w file = .error (.file fault) := by
  obtain ⟨paths, hpaths⟩ := hc.exists_libraries w.directory
  obtain ⟨table, htable⟩ := hc.exists_externalVariables
  rw [arguments, hpaths, htable, h]
  rfl

end Renderer

end JsonnetPreview
