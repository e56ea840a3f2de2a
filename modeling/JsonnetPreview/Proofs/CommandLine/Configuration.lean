import JsonnetPreview.CommandLine.Run
import JsonnetPreview.Proofs.CommandLine.Spelling
import JsonnetPreview.Proofs.Config.Externals
import JsonnetPreview.Proofs.Config.Libraries
import JsonnetPreview.Proofs.Config.Restart
import JsonnetPreview.Proofs.Renderer.Arguments
import JsonnetPreview.Proofs.Renderer.Carried
import JsonnetPreview.Proofs.Session.Settings

namespace JsonnetPreview

namespace CommandLine

open Config (libraryPaths yamlStream outputFormat workspaceFolder)

def shownPath (path : Text) : Text := if path = Value.dashes then "[]" else path

theorem display_ofText (path : Text) : (Value.ofText path).toJson.display = shownPath path := by
  rw [Value.ofText, shownPath]
  split <;> rfl

def IsName (name : Text) : Prop := name ≠ [] ∧ .char '=' ∉ name

instance (name : Text) : Decidable (IsName name) := inferInstanceAs (Decidable (_ ∧ _))

namespace Choice

variable (os : List Choice)

def libraries : List Text := (os.filterMap library?).map shownPath

def externals : List (Text × Text) := os.filterMap external?

end Choice

variable {c c' : Config} {os : List Choice} {paths : List Text} {pairs : List (Text × Text)}

/-- The settings `c` with what options ask for, where they hold some library paths and variables. -/
structure Configured (c : Config) (paths : List Text) (pairs : List (Text × Text))
    (os : List Choice) (c' : Config) : Prop where
  libraries : ∃ items, c'.get libraryPaths = .arr items ∧
    items.map Json.display = paths ++ Choice.libraries os
  externals : c'.externalVariables = .ok (.ofTexts (pairs ++ Choice.externals os))
  stream : (c'.get yamlStream).isGiven = (decide (.stream ∈ os) || (c.get yamlStream).isGiven)
  others : ∀ name, name ≠ libraryPaths → name ≠ Config.externals → name ≠ yamlStream →
    name ≠ outputFormat → c'.get? name = c.get? name

theorem assignAll_texts (t : VariableTable) {pairs : List (Text × Text)}
    (h : ∀ e ∈ pairs, IsName e.1) :
    assignAll t (pairs.map fun e => .text (Variables.assignment e.1 e.2)) =
      .ok (t.setAll (pairs.map fun (name, value) => (⟨.str name⟩, .str value))) := by
  induction pairs generalizing t with
  | nil => rfl
  | cons e pairs ih =>
      obtain ⟨⟨hne, hequals⟩, hpairs⟩ := List.forall_mem_cons.1 h
      rw [List.map_cons, assignAll, Variables.pair?_assignment hne hequals]
      exact ih _ hpairs

theorem configureVariables_eq {a : Arguments}
    (ha : a.externals = (Choice.externals os).map fun e => .text (Variables.assignment e.1 e.2))
    (hos : ∀ e ∈ Choice.externals os, IsName e.1)
    (hc : c.externalVariables = .ok (.ofTexts pairs)) :
    ∃ c', a.configureVariables c = .ok c' ∧
      c'.externalVariables = .ok (.ofTexts (pairs ++ Choice.externals os)) ∧
      ∀ name, name ≠ Config.externals → c'.get? name = c.get? name := by
  rw [Arguments.configureVariables]
  by_cases hnone : Choice.externals os = []
  · rw [ha, hnone, List.append_nil]
    exact ⟨c, rfl, hc, fun _ _ => rfl⟩
  · have hgiven : ¬a.externals.isEmpty = true := by simpa [ha] using hnone
    have hassign := assignAll_texts (.ofTexts pairs) hos
    rw [if_neg hgiven, hc, ha]
    simp only [hassign]
    refine ⟨_, rfl, ?_, fun name hname => Table.get?_set_of_ne hname _ c.settings⟩
    rw [Config.externalVariables_withVariables, VariableTable.ofTexts, VariableTable.ofTexts,
      List.map_append, Table.ofPairs, Table.ofPairs, Table.setAll_append]

/-- The settings of one run before the variables are looked at. -/
def overridden (a : Arguments) (c : Config) (items : List Json) : Config :=
  c.override [(outputFormat, a.formatSetting),
    (libraryPaths, if a.libraryPaths.isEmpty then .null
      else .arr (items ++ a.libraryPaths.map Value.toJson)), (yamlStream, a.streamSetting)]

theorem configure_eq (a : Arguments) {items : List Json} (h : c.get libraryPaths = .arr items) :
    a.configure c = a.configureVariables (overridden a c items) := by
  rw [Arguments.configure, Arguments.librarySetting, h, Config.elementsOf_arr, overridden]
  split <;> rfl

section Overridden

variable (a : Arguments) (c : Config) (items : List Json)

theorem overridden_eq : overridden a c items =
    ((c.override [(outputFormat, a.formatSetting)]).override
      [(libraryPaths, if a.libraryPaths.isEmpty then .null
        else .arr (items ++ a.libraryPaths.map Value.toJson))]).override
          [(yamlStream, a.streamSetting)] := rfl

theorem get?_overridden {name : Text} (hlibrary : name ≠ libraryPaths) (hstream : name ≠ yamlStream)
    (hformat : name ≠ outputFormat) : (overridden a c items).get? name = c.get? name := by
  rw [overridden_eq, Config.get?_override_of_ne hstream, Config.get?_override_of_ne hlibrary,
    Config.get?_override_of_ne hformat]

theorem given_overridden : (overridden a c items).given = c.given := by
  rw [overridden_eq, Config.given_override (by decide), Config.given_override (by decide),
    Config.given_override (by decide)]

theorem libraryPaths_overridden (h : c.get libraryPaths = .arr items) :
    (overridden a c items).get libraryPaths = .arr (items ++ a.libraryPaths.map Value.toJson) := by
  rw [Config.get, overridden_eq, Config.get?_override_of_ne (by decide)]
  split
  next hempty =>
    rw [List.isEmpty_iff.1 hempty, Config.override_null, Config.get?_override_of_ne (by decide),
      List.map_nil, List.append_nil]
    exact h
  next =>
    have hne : Json.arr (items ++ a.libraryPaths.map Value.toJson) ≠ .null := by simp
    rw [Config.get?_override_self hne]
    rfl

theorem stream_overridden :
    ((overridden a c items).get yamlStream).isGiven = (a.stream || (c.get yamlStream).isGiven) := by
  rw [Config.get, overridden_eq, Arguments.streamSetting]
  cases a.stream with
  | false =>
      rw [if_neg Bool.false_ne_true, Config.override_null, Config.get?_override_of_ne (by decide),
        Config.get?_override_of_ne (by decide)]
      rfl
  | true =>
      have hne : Json.bool true ≠ .null := by simp
      rw [if_pos rfl, Config.get?_override_self hne]
      rfl

end Overridden

theorem exists_configured (files : List Text) (hgiven : c.given = none)
    (hpaths : c.get libraryPaths = .arr (paths.map .str))
    (hpairs : c.get Config.externals = .obj (pairs.map fun (name, value) => (name, .str value)))
    (hos : ∀ e ∈ Choice.externals os, IsName e.1) :
    ∃ c', { Choice.all os with files }.configure c = .ok c' ∧ Configured c paths pairs os c' := by
  let a : Arguments := { Choice.all os with files }
  let c₁ := overridden a c (paths.map .str)
  have hc₁ : c₁.externalVariables = .ok (.ofTexts pairs) := by
    refine Config.HasTexts.externalVariables (.setting ((given_overridden a c _).trans hgiven) ?_)
    rw [Config.get, get?_overridden a c _ (by decide) (by decide) (by decide)]
    exact hpairs
  obtain ⟨c', hconfigure, hexternals, hothers⟩ :=
    configureVariables_eq (a := a) (Choice.externals_all os) hos hc₁
  have hget {name : Text} (hname : name ≠ Config.externals) : c'.get name = c₁.get name := by
    rw [Config.get, hothers name hname, Config.get]
  refine ⟨c', (configure_eq a hpaths).trans hconfigure, ?_, hexternals, ?_, ?_⟩
  · refine ⟨_, (hget (by decide)).trans (libraryPaths_overridden a c _ hpaths), ?_⟩
    rw [show a.libraryPaths = _ from Choice.libraryPaths_all os, List.map_append, List.map_map,
      List.map_map, List.map_map, Choice.libraries]
    congr 1
    · exact List.map_id paths
    · exact List.map_congr_left fun path _ => display_ofText path
  · rw [hget (by decide), stream_overridden a c, show a.stream = _ from Choice.stream_all os]
  · intro name hlibrary hname hstream hformat
    rw [hothers name hname, get?_overridden a c _ hlibrary hstream hformat]

/-- The variables of the options over those of the settings. Names stand where they were first given,
each of them once, and a value is the last one that was given on the command line. -/
structure Merges (pairs given : List (Text × Text)) (t : Table Text Text) : Prop where
  keys : Table.keys t = (Table.keys pairs ++ Table.keys given).eraseDups
  values : ∀ name, t.get? name = (Table.get? given.reverse name).or (Table.get? pairs name)

theorem merges_ofPairs (hpairs : Table.Distinct pairs) (given : List (Text × Text)) :
    Merges pairs given (Table.ofPairs (pairs ++ given)) where
  keys := by
    rw [Table.ofPairs, Table.keys_setAll .nil, Table.keys_append]
    rfl
  values name := by
    rw [Table.ofPairs, Table.get?_setAll, Table.get?, List.reverse_append, List.lookup_append,
      ← Table.get?, ← Table.get?, Table.get?_reverse hpairs]
    exact Option.or_none

end CommandLine

namespace Renderer

/-- Both programs are given the same words behind their own ones. -/
structure Makes (r : Renderer) (c : Config) (w : World) (file : Text) (stream : Bool)
    (words : List Text) : Prop where
  command : r.command c w file =
    .ok ⟨r.executable, (if stream then [Text.ofString "-y"] else []) ++ words⟩
  kubecfg : r.kubecfgCommand c w file =
    .ok ⟨r.kubecfg, [Text.ofString "show", Text.ofString "-o", Text.ofString "json"] ++ words⟩

structure Refuses (r : Renderer) (c : Config) (w : World) (file : Text) (fault : CommandFault) :
    Prop where
  command : r.command c w file = .error fault
  kubecfg : r.kubecfgCommand c w file = .error fault

variable {c : Config} {w : World} {file : Text}

theorem makes_of_arguments {words : List Text} (h : arguments c w file = .ok words)
    (r : Renderer) : r.Makes c w file (c.get Config.yamlStream).isGiven words where
  command := command_eq_ok_iff.2 ⟨words, h, rfl⟩
  kubecfg := kubecfgCommand_eq_ok_iff.2 ⟨words, h, rfl⟩

theorem refuses_of_arguments {fault : CommandFault} (h : arguments c w file = .error fault)
    (r : Renderer) : r.Refuses c w file fault where
  command := by
    rw [Renderer.command, h]
    rfl
  kubecfg := by
    rw [kubecfgCommand, h]
    rfl

end Renderer

namespace CommandLine

open Config (libraryPaths yamlStream)

section Configured

open Renderer (withOption withAssignments)

variable {c c' : Config} {os : List Choice} {paths : List Text} {pairs : List (Text × Text)}
  (h : Configured c paths pairs os c') {w : World} (file : Text)

include h

theorem Configured.workspaceRoot (directory : Path) :
    c'.workspaceRoot directory = c.workspaceRoot directory :=
  Config.workspaceRoot_congr (h.others _ (by decide) (by decide) (by decide) (by decide)) directory

theorem Configured.exists_libraries {directory : Path}
    (hrooted : c.IsRooted directory (paths ++ Choice.libraries os)) :
    ∃ libraries, c'.libraries directory = .ok libraries ∧
      List.Forall₂ (c.Expands directory) (paths ++ Choice.libraries os) libraries := by
  obtain ⟨items, hitems, hshown⟩ := h.libraries
  have hrooted' : c'.IsRooted directory (items.map Json.display) := by
    rw [hshown, Config.IsRooted, h.workspaceRoot]
    exact hrooted
  obtain ⟨libraries, hlibraries, hexpands⟩ := Config.libraries_of_isRooted hitems hrooted'
  refine ⟨libraries, hlibraries, hshown ▸ hexpands.imp fun item library hitem => ?_⟩
  rwa [Config.Expands, h.workspaceRoot] at hitem

theorem Configured.arguments_of_isRooted
    (hrooted : c.IsRooted w.directory (paths ++ Choice.libraries os)) :
    (∃ libraries, List.Forall₂ (c.Expands w.directory) (paths ++ Choice.libraries os) libraries ∧
      ∀ imports, Ksonnet.imports w.files w.directory file = .ok imports →
        Renderer.arguments c' w file = .ok (withOption "-J" libraries ++
          withAssignments "--ext-str" (Table.ofPairs (pairs ++ Choice.externals os)) ++
          withAssignments "--ext-code-file" imports ++ [file])) ∧
      ∀ fault, Ksonnet.imports w.files w.directory file = .error fault →
        Renderer.arguments c' w file = .error (.file fault) := by
  obtain ⟨libraries, hlibraries, hexpands⟩ := h.exists_libraries hrooted
  refine ⟨⟨libraries, hexpands, fun imports himports => ?_⟩, fun fault hfault => ?_⟩
  · refine Renderer.arguments_eq_ok_iff.2 ⟨_, _, _, hlibraries, h.externals, himports, ?_⟩
    rw [VariableTable.ofTexts_eq, VariableTable.toTexts_ofTable]
  · rw [Renderer.arguments, hlibraries, h.externals, hfault]
    rfl

theorem Configured.arguments_of_not_isRooted
    (hrooted : ¬c.IsRooted w.directory (paths ++ Choice.libraries os)) :
    Renderer.arguments c' w file =
      .error (.setting (.rootNotText (c.workspaceRoot w.directory).kindName)) := by
  obtain ⟨items, hitems, hshown⟩ := h.libraries
  have hrooted' : ¬c'.IsRooted w.directory (items.map Json.display) := by
    rw [hshown, Config.IsRooted, h.workspaceRoot]
    exact hrooted
  rw [Renderer.arguments, Config.libraries_of_not_isRooted hitems hrooted', h.workspaceRoot]
  rfl

end Configured

theorem runFiles_eq {a : Arguments} {files : List Text} {w w₁ : World} {c c' : Config}
    (hload : Config.load w = .ok (c, w₁)) (hconfigure : a.configure c = .ok c') :
    runFiles a files w =
      if a.check then .ended (runCheck files c' (logSetup a c') w₁)
      else .preview ⟨files, c', logSetup a c', w₁⟩ := by
  rw [runFiles, hload]
  simp only [hconfigure]

/-- How the program goes on with the settings of one run, if it can go on with the files. -/
def GoesOn (words files : List Text) (w w₁ : World) (a : Arguments) (c : Config) : Prop :=
  files ≠ [] → (files.map (absolutePath w)).findSome? (refusal? w) = none →
    run words w =
      if a.check then .ended (runCheck (files.map (absolutePath w)) c (logSetup a c) w₁)
      else .preview ⟨files.map (absolutePath w), c, logSetup a c, w₁⟩

theorem goesOn {words : List Text} {a : Arguments} {w w₁ : World} {c c' : Config}
    (hwords : Arguments.ofTexts words = .ok a) (hload : Config.load w = .ok (c, w₁))
    (hconfigure : a.configure c = .ok c') : GoesOn words a.files w w₁ a c' := by
  intro hfiles hfound
  have hempty : a.files.isEmpty = false := List.isEmpty_eq_false_iff.2 hfiles
  simp only [run, hwords, runArguments, hempty, Bool.false_eq_true, if_false, hfound]
  exact runFiles_eq hload hconfigure

theorem distinct_of_texts {w w₁ : World} {c : Config} {pairs : List (Text × Text)}
    (hload : Config.load w = .ok (c, w₁))
    (hpairs : c.get Config.externals = .obj (pairs.map fun (name, value) => (name, .str value))) :
    Table.Distinct pairs :=
  List.pairwise_map.1 (Config.distinct_of_load (by decide) hload hpairs)

/-- However options are spelled, each program is given the library paths of the settings and behind
them those of the options, the variables of both, the imports of the app that the file is in, and
the file. Nothing is given to it if a workspace root is needed that is no text, or if the system
objects to a path at which an app is looked for. The file of the settings stays as it is. -/
theorem makes_of_spelled {w w₁ : World} {c : Config} {paths : List Text}
    {pairs : List (Text × Text)} (hload : Config.load w = .ok (c, w₁))
    (hpaths : c.get libraryPaths = .arr (paths.map .str))
    (hpairs : c.get Config.externals = .obj (pairs.map fun (name, value) => (name, .str value)))
    {before after : List Choice} {ts us files : List Text} (hbefore : SpelledAll before ts)
    (hafter : SpelledAll after us) (hfiles : ∀ file ∈ files, IsOperand file)
    (hnames : ∀ e ∈ Choice.externals (before ++ after), IsName e.1) :
    ∃ (a : Arguments) (c' : Config) (externals : Table Text Text),
      Arguments.ofTexts (ts ++ (files ++ us)) = .ok a ∧ a.configure c = .ok c' ∧
      GoesOn (ts ++ (files ++ us)) files w w₁ a c' ∧
      w₁.files.node? (Config.place w₁) = w.files.node? (Config.place w) ∧
      Merges pairs (Choice.externals (before ++ after)) externals ∧
      ∀ (w' : World) (file : Text),
        (Renderer.ofConfig c' w').1.executable =
          (c.get? Config.executable).getD (.str "jsonnet") ∧
        (c.IsRooted w'.directory (paths ++ Choice.libraries (before ++ after)) →
          ∃ libraries, List.Forall₂ (c.Expands w'.directory)
              (paths ++ Choice.libraries (before ++ after)) libraries ∧
            (∀ imports, Ksonnet.imports w'.files w'.directory file = .ok imports →
              ∀ r : Renderer, r.Makes c' w' file
                (decide (.stream ∈ before ++ after) || (c.get yamlStream).isGiven)
                (Renderer.withOption "-J" libraries ++
                  Renderer.withAssignments "--ext-str" externals ++
                  Renderer.withAssignments "--ext-code-file" imports ++ [file])) ∧
            ∀ fault, Ksonnet.imports w'.files w'.directory file = .error fault →
              (∃ e path, fault = .system e path ∧ w'.files.Objects path e) ∧
              ∀ r : Renderer, r.Refuses c' w' file (.file fault)) ∧
        (¬c.IsRooted w'.directory (paths ++ Choice.libraries (before ++ after)) →
          ∀ r : Renderer, r.Refuses c' w' file
            (.setting (.rootNotText (c.workspaceRoot w'.directory).kindName))) := by
  obtain ⟨c', hconfigure, h⟩ := exists_configured files
    (Config.OverDefaults.of_load hload).given hpaths hpairs hnames
  have hwords := ofTexts_of_spelled hbefore hafter hfiles
  refine ⟨_, c', _, hwords, hconfigure, goesOn hwords hload hconfigure,
    (Config.load_frame hload).2.2, merges_ofPairs (distinct_of_texts hload hpairs) _,
    fun w' file => ⟨?_, fun hrooted => ?_, fun hrooted r => ?_⟩⟩
  · have hexecutable := h.others Config.executable (by decide) (by decide) (by decide) (by decide)
    rw [← hexecutable]
    rfl
  · obtain ⟨⟨libraries, hexpands, hmakes⟩, hrefuses⟩ := h.arguments_of_isRooted file hrooted
    refine ⟨libraries, hexpands, fun imports himports r => ?_, fun fault hfault => ⟨?_, fun r => ?_⟩⟩
    · rw [← h.stream]
      exact Renderer.makes_of_arguments (hmakes imports himports) r
    · exact Ksonnet.objects_of_imports hfault
    · exact Renderer.refuses_of_arguments (hrefuses fault hfault) r
  · exact Renderer.refuses_of_arguments (h.arguments_of_not_isRooted file hrooted) r

def sharedPaths : List Text := ["$\x7bworkspaceFolder\x7d/lib"]

def sharedPairs : List (Text × Text) := [("env", "prod")]

def sharedMembers : Table Text Json :=
  [("lib_paths", .arr (sharedPaths.map .str)),
    ("ext_strs", .obj (sharedPairs.map fun (name, value) => (name, .str value))),
    ("workspace_folder", .str "/work")]

def sharedText : Text :=
  .ofString ("\x7b\"lib_paths\": [\"$\x7bworkspaceFolder\x7d/lib\"], " ++
    "\"ext_strs\": \x7b\"env\": \"prod\"\x7d, \"workspace_folder\": \"/work\"\x7d")

def withMembers (members : Table Text Json) : Config :=
  { settings := Config.defaults.settings.setAll members }

theorem exists_load_withMembers {text : Text} {members : Table Text Json} (hscalar : text.IsScalar)
    (hread : Json.read text = .ok (.obj members)) :
    ∃ w₁, Config.load (Config.storedWorld (Utf8.encode text)) = .ok (withMembers members, w₁) := by
  refine Config.load_of_ofContent (fun p hp => ?_) rfl (.object hscalar hread)
  have hp' : p ∈ [[Text.ofString ".jsonnetpeek"]] := hp
  cases List.mem_singleton.1 hp'
  exact ⟨nofun, rfl⟩

def sharedBefore : List Choice := [.library "vendor", .external "env" "dev"]

def sharedAfter : List Choice := [.external "query" "a=b"]

theorem spelled_sharedBefore : SpelledAll sharedBefore ["-J", "vendor", "--ext=env=dev"] := by
  have hname : Switch.externalVariable.Names "ext" := ⟨by decide, .inr ⟨by decide, by decide⟩⟩
  have hlibrary : (Choice.library "vendor").Spelled ["-J", "vendor"] :=
    .apart _ _ rfl (.letter 'J' rfl) rfl
  have hexternal : (Choice.external "env" "dev").Spelled ["--ext=env=dev"] :=
    .nameEquals "ext" _ rfl hname
  exact .cons hlibrary (.cons hexternal .nil)

theorem spelled_sharedAfter : SpelledAll sharedAfter ["-Vquery=a=b"] := by
  have hexternal : (Choice.external "query" "a=b").Spelled ["-Vquery=a=b"] :=
    .glued 'V' _ rfl rfl nofun (by decide)
  exact .cons hexternal .nil

theorem makes_of_spelled_shared :
    ∃ w₁ a c', Config.load (Config.storedWorld (Utf8.encode sharedText)) =
        .ok (withMembers sharedMembers, w₁) ∧
      (withMembers sharedMembers).get libraryPaths = .arr (sharedPaths.map .str) ∧
      (withMembers sharedMembers).get Config.externals =
        .obj (sharedPairs.map fun (name, value) => (name, .str value)) ∧
      SpelledAll sharedBefore ["-J", "vendor", "--ext=env=dev"] ∧
      SpelledAll sharedAfter ["-Vquery=a=b"] ∧ IsOperand "main.jsonnet" ∧
      (∀ e ∈ Choice.externals (sharedBefore ++ sharedAfter), IsName e.1) ∧
      Arguments.ofTexts ["-J", "vendor", "--ext=env=dev", "main.jsonnet", "-Vquery=a=b"] = .ok a ∧
      a.configure (withMembers sharedMembers) = .ok c' ∧
      ∃ externals : Table Text Text, Table.keys externals = ["env", "query"] ∧
        externals.get? "env" = some "dev" ∧ externals.get? "query" = some "a=b" ∧
        ∀ r : Renderer, r.Makes c' Session.sampleWorld "main.jsonnet" false
          (Renderer.withOption "-J" ["/work/lib", "vendor"] ++
            Renderer.withAssignments "--ext-str" externals ++ [Text.ofString "main.jsonnet"]) := by
  have hread : Json.read sharedText = .ok (.obj sharedMembers) := rfl
  obtain ⟨w₁, hload⟩ := exists_load_withMembers (Text.isScalar_map _) hread
  have hpaths : (withMembers sharedMembers).get libraryPaths = .arr (sharedPaths.map .str) := rfl
  have hpairs : (withMembers sharedMembers).get Config.externals =
      .obj (sharedPairs.map fun (name, value) => (name, .str value)) := rfl
  have hnames : ∀ e ∈ Choice.externals (sharedBefore ++ sharedAfter), IsName e.1 := by decide
  have hfile : IsOperand "main.jsonnet" := rfl
  obtain ⟨a, c', externals, hwords, hconfigure, -, -, hmerges, hmakes⟩ :=
    makes_of_spelled hload hpaths hpairs spelled_sharedBefore spelled_sharedAfter
      (List.forall_mem_singleton.2 hfile) hnames
  refine ⟨w₁, a, c', hload, hpaths, hpairs, spelled_sharedBefore, spelled_sharedAfter, hfile, hnames,
    hwords, hconfigure, externals, hmerges.keys.trans (by decide),
    (hmerges.values _).trans (by decide), (hmerges.values _).trans (by decide), fun r => ?_⟩
  obtain ⟨-, hrooted, -⟩ := hmakes Session.sampleWorld "main.jsonnet"
  obtain ⟨libraries, hlibraries, hmake, -⟩ := hrooted fun _ => ⟨"/work", rfl⟩
  have hexpanded : libraries = ([.ofString "/work/lib", .ofString "vendor"] : List Text) :=
    Config.eq_map_of_expands hlibraries rfl
  have hmade : r.Makes c' Session.sampleWorld "main.jsonnet" false
      (Renderer.withOption "-J" libraries ++ Renderer.withAssignments "--ext-str" externals ++ [] ++
        [Text.ofString "main.jsonnet"]) := hmake [] rfl r
  rwa [hexpanded, List.append_nil] at hmade

def numberedMembers : Table Text Json := [("workspace_folder", .int 5)]

def numberedText : Text := "\x7b\"workspace_folder\": 5\x7d"

def library : Choice := .library "lib"

def dashedLibrary : Choice := .library "--"

theorem spelled_library : SpelledAll [library] ["-J", "lib"] := by
  have hlibrary : library.Spelled ["-J", "lib"] := .apart _ _ rfl (.letter 'J' rfl) rfl
  exact .cons hlibrary .nil

theorem spelled_dashedLibrary : SpelledAll [dashedLibrary] ["--jpath=--"] := by
  have hname : Switch.libraryPath.Names "jpath" := ⟨by decide, .inl (by decide)⟩
  have hlibrary : dashedLibrary.Spelled ["--jpath=--"] := .nameEquals "jpath" _ rfl hname
  exact .cons hlibrary .nil

theorem exists_configured_of_noPairs (c : Config) (os : List Choice) (files : List Text)
    (hgiven : c.given = none) (hpaths : c.get libraryPaths = .arr [])
    (hpairs : c.get Config.externals = .obj []) (hos : Choice.externals os = []) :
    ∃ c', { Choice.all os with files }.configure c = .ok c' ∧ Configured c [] [] os c' := by
  refine exists_configured files hgiven hpaths hpairs ?_
  rw [hos]
  exact nofun

/-- No program is given a library path if the workspace root is no text. Two dashes that stand in the
word of the option are not the library path that a program is given. -/
theorem not_makes_numbered :
    (∃ c w₁ a c', Config.load (Config.storedWorld (Utf8.encode numberedText)) = .ok (c, w₁) ∧
      c.get libraryPaths = .arr [] ∧ c.get Config.externals = .obj [] ∧
      SpelledAll [library] ["-J", "lib"] ∧
      Arguments.ofTexts ["-J", "lib", "main.jsonnet"] = .ok a ∧ a.configure c = .ok c' ∧
      ∀ (r : Renderer) (w : World) (file : Text),
        r.Refuses c' w file (.setting (.rootNotText "int"))) ∧
    ∃ a c', SpelledAll [dashedLibrary] ["--jpath=--"] ∧
      Arguments.ofTexts ["--jpath=--", "main.jsonnet"] = .ok a ∧ a.configure .defaults = .ok c' ∧
      ∀ r : Renderer, r.Makes c' Session.sampleWorld "main.jsonnet" false
        [Text.ofString "-J", Text.ofString "[]", Text.ofString "main.jsonnet"] := by
  have hfile : IsOperand "main.jsonnet" := rfl
  have hfiles := List.forall_mem_singleton.2 hfile
  constructor
  · have hread : Json.read numberedText = .ok (.obj numberedMembers) := rfl
    obtain ⟨w₁, hload⟩ := exists_load_withMembers (Text.isScalar_map _) hread
    obtain ⟨c', hconfigure, h⟩ := exists_configured_of_noPairs (withMembers numberedMembers)
      [library] ["main.jsonnet"] rfl rfl rfl rfl
    refine ⟨_, w₁, _, c', hload, rfl, rfl, spelled_library,
      ofTexts_of_spelled spelled_library .nil hfiles, hconfigure, fun r w file => ?_⟩
    refine Renderer.refuses_of_arguments (h.arguments_of_not_isRooted file fun hrooted => ?_) r
    obtain ⟨root, hroot⟩ := hrooted nofun
    cases hroot
  · obtain ⟨c', hconfigure, h⟩ := exists_configured_of_noPairs .defaults
      [dashedLibrary] ["main.jsonnet"] rfl rfl rfl rfl
    refine ⟨_, c', spelled_dashedLibrary, ofTexts_of_spelled spelled_dashedLibrary .nil hfiles,
      hconfigure, fun r => ?_⟩
    obtain ⟨⟨libraries, hlibraries, hmakes⟩, -⟩ :=
      h.arguments_of_isRooted (w := Session.sampleWorld) "main.jsonnet" fun _ => ⟨"/", rfl⟩
    obtain rfl : libraries = ([.ofString "[]"] : List Text) :=
      Config.eq_map_of_expands hlibraries rfl
    have hstream : (c'.get yamlStream).isGiven = false := h.stream
    rw [← hstream]
    exact Renderer.makes_of_arguments (hmakes [] rfl) r

end CommandLine

end JsonnetPreview
