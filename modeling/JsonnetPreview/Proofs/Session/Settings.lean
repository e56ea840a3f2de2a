import JsonnetPreview.Proofs.Session.Reachable

namespace JsonnetPreview

namespace Config

theorem get_withVariables {c : Config} {name : Text} (h : name ≠ externals) (t : VariableTable) :
    (c.withVariables t).get name = c.get name :=
  congrArg (fun v : Option Json => v.getD .null) (Table.get?_set_of_ne h t.toJson c.settings)

theorem externalVariables_withVariables (c : Config) (t : VariableTable) :
    (c.withVariables t).externalVariables = .ok t := rfl

theorem libraries_withVariables (c : Config) (t : VariableTable) (directory : Path) :
    (c.withVariables t).libraries directory = c.libraries directory := by
  have hlibraries : (c.withVariables t).get libraryPaths = c.get libraryPaths :=
    get_withVariables (by decide) t
  have hfolder : (c.withVariables t).get workspaceFolder = c.get workspaceFolder :=
    get_withVariables (by decide) t
  simp only [libraries, workspaceRoot, hlibraries, hfolder]

end Config

namespace World

def scene (w : World) : FileTree × Path := (w.files, w.directory)

end World

namespace Renderer

theorem command_withVariables {c : Config} {t : VariableTable} (h : c.externalVariables = .ok t)
    (r : Renderer) (w : World) (file : Text) :
    r.command (c.withVariables t) w file = r.command c w file ∧
      r.kubecfgCommand (c.withVariables t) w file = r.kubecfgCommand c w file := by
  have harguments : arguments (c.withVariables t) w file = arguments c w file := by
    simp only [arguments, Config.libraries_withVariables, Config.externalVariables_withVariables, h]
  have hstream : (c.withVariables t).get Config.yamlStream = c.get Config.yamlStream :=
    Config.get_withVariables (by decide) t
  simp only [command, kubecfgCommand, harguments, hstream, and_self]

theorem runCommand_scene (c : Config) (w : World) (command : Command) :
    (runCommand c w command).2.scene = w.scene := by
  unfold runCommand
  split <;> rfl

theorem renderMain_scene (r : Renderer) (c : Config) (w : World) (file earlier : Text) :
    (r.renderMain c w file earlier).2.scene = w.scene := by
  unfold renderMain
  split
  · rfl
  · split
    · exact runCommand_scene c w _
    · split
      · rfl
      · split <;> rfl

theorem render_scene (r : Renderer) (c : Config) (w : World) (file : Text) :
    (r.render c w file).2.scene = w.scene := by
  unfold render
  by_cases hkubecfg : r.kubecfg.isGiven
  · rw [if_pos hkubecfg]
    cases r.kubecfgCommand c w file with
    | error fault => rfl
    | ok command =>
        have hscene := runCommand_scene c w command
        rcases hrun : runCommand c w command with ⟨fault | rendering, w'⟩
        · rw [hrun] at hscene
          simpa only [hrun] using hscene
        · rw [hrun] at hscene
          simp only [hrun]
          split
          · exact hscene
          · exact (renderMain_scene r c w' file _).trans hscene
  · rw [if_neg hkubecfg]
    exact renderMain_scene r c w file []

end Renderer

namespace Session

structure Settings where
  path : Text
  format : Json
  externals : VariableTable
  config : Config

def settings (s : Session) : Settings :=
  ⟨s.state.path, s.state.format, s.state.externals, s.config⟩

@[simp]
theorem endCycle_settings (s : Session) (r : Except Fault Shown) :
    (s.endCycle r).settings = s.settings := by
  cases r <;> rfl

@[simp]
theorem applyPayload_settings (s : Session) (p : Payload) :
    (s.applyPayload p).settings = s.settings :=
  endCycle_settings _ _

theorem settings_of_refreshes {s t : Session} (h : Refreshes s t) : t.settings = s.settings := by
  cases h with
  | unread fault => exact endCycle_settings s _
  | unrendered text fault world => exact endCycle_settings (s.asked text world) _
  | rendered text r world =>
      exact applyPayload_settings ((s.asked text world).keep (.ofOutcome r.output r.report)) _

@[simp]
theorem refresh_settings (s : Session) : s.refresh.settings = s.settings :=
  settings_of_refreshes s.refresh_cases

theorem setVariables_settings (s : Session) (externals : VariableTable) :
    (s.setVariables externals).settings = (s.withVariables externals).settings :=
  refresh_settings (s.withVariables externals)

/-- What a cycle goes by and leaves alone beside the settings. -/
structure Surroundings where
  scene : FileTree × Path
  watcher : Watcher

def surroundings (s : Session) : Surroundings := ⟨s.world.scene, s.watcher⟩

@[simp]
theorem endCycle_surroundings (s : Session) (r : Except Fault Shown) :
    (s.endCycle r).surroundings = s.surroundings := by
  cases r <;> rfl

@[simp]
theorem applyPayload_surroundings (s : Session) (p : Payload) :
    (s.applyPayload p).surroundings = s.surroundings :=
  endCycle_surroundings _ _

theorem asked_surroundings (s : Session) (text : Text) {world : World}
    (h : world.scene = s.world.scene) :
    (s.asked text world).surroundings = s.surroundings :=
  congrArg (Surroundings.mk · s.watcher) h

theorem surroundings_of_refreshes {s t : Session} (h : Refreshes s t) :
    t.surroundings = s.surroundings := by
  cases h with
  | unread fault => exact endCycle_surroundings s _
  | unrendered text fault world hread hrender =>
      have hscene := s.renderer.render_scene s.config s.world s.state.path
      rw [hrender] at hscene
      exact (endCycle_surroundings (s.asked text world) _).trans (asked_surroundings s text hscene)
  | rendered text r world hread hrender =>
      have hscene := s.renderer.render_scene s.config s.world s.state.path
      rw [hrender] at hscene
      exact (applyPayload_surroundings
        ((s.asked text world).keep (.ofOutcome r.output r.report)) _).trans
          (asked_surroundings s text hscene)

@[simp]
theorem refresh_surroundings (s : Session) : s.refresh.surroundings = s.surroundings :=
  surroundings_of_refreshes s.refresh_cases

@[simp]
theorem refresh_path (s : Session) : s.refresh.state.path = s.state.path :=
  congrArg Settings.path s.refresh_settings

@[simp]
theorem refresh_directory (s : Session) : s.refresh.world.directory = s.world.directory :=
  congrArg (·.scene.2) s.refresh_surroundings

@[simp]
theorem refresh_files (s : Session) : s.refresh.world.files = s.world.files :=
  congrArg (·.scene.1) s.refresh_surroundings

@[simp]
theorem refresh_watcher (s : Session) : s.refresh.watcher = s.watcher :=
  congrArg Surroundings.watcher s.refresh_surroundings

def Settings.Agree (x : Settings) : Prop := x.config.externalVariables = .ok x.externals

theorem agree_of_create {path : Text} {config : Config} {w : World} {s : Session}
    (h : create path config w = .ok s) : s.settings.Agree := by
  obtain ⟨externals, hexternals, rfl⟩ := create_eq h
  exact hexternals

theorem agree_of_move {s t : Session} (ht : Move s t) (h : s.settings.Agree) :
    t.settings.Agree := by
  cases ht with
  | refresh ht => exact settings_of_refreshes ht ▸ h
  | override externals => exact Config.externalVariables_withVariables s.config externals
  | replay name p => exact (applyPayload_settings (s.withFormat name) p).symm ▸ h
  | select | format | watcher | environment => exact h

theorem agree_of_reachable {s : Session} (h : Reachable s) : s.settings.Agree :=
  h.invariant agree_of_create agree_of_move

end Session

end JsonnetPreview
