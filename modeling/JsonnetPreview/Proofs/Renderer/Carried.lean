import JsonnetPreview.Renderer.Run

namespace JsonnetPreview

section Except

variable {ε ε' α β : Type} {x : Except ε α}

theorem bind_eq_ok_iff {f : α → Except ε β} {b : β} :
    x >>= f = .ok b ↔ ∃ a, x = .ok a ∧ f a = .ok b := by
  cases x <;> simp [bind, Except.bind]

theorem mapError_eq_ok_iff {f : ε → ε'} {a : α} : x.mapError f = .ok a ↔ x = .ok a := by
  cases x with
  | error e => constructor <;> (intro h; cases h)
  | ok b => constructor <;> (intro h; cases h; rfl)

end Except

namespace Command

def standsAlone (word : Text) : Bool := word = Text.ofString "-y" || word = Text.ofString "show"

/-- The values that are given to an option. The last word is the file. -/
def valuesOf (option : Text) : List Text → List Text
  | [] => []
  | [_] => []
  | word :: value :: rest =>
    if standsAlone word then valuesOf option (value :: rest)
    else if word = option then value :: valuesOf option rest
    else valuesOf option rest

def externals (c : Command) : List Text := valuesOf (.ofString "--ext-str") c.arguments

def Carries (c : Command) (t : VariableTable) : Prop :=
  c.externals = t.toTexts.map fun (name, value) => Variables.assignment name value

section ValuesOf

variable {option word : Text}

theorem valuesOf_cons_of_standsAlone (hword : standsAlone word = true) {words : List Text}
    (hwords : words ≠ []) : valuesOf option (word :: words) = valuesOf option words := by
  obtain ⟨value, rest, rfl⟩ := List.exists_cons_of_ne_nil hwords
  rw [valuesOf, if_pos hword]

theorem valuesOf_withOption {name : String} (hname : standsAlone (.ofString name) = false)
    (values words : List Text) :
    valuesOf (.ofString name) (Renderer.withOption name values ++ words) =
      values ++ valuesOf (.ofString name) words := by
  induction values with
  | nil => rfl
  | cons value values ih =>
      show valuesOf _ (Text.ofString name :: value :: (Renderer.withOption name values ++ words)) = _
      rw [valuesOf, hname, if_neg Bool.false_ne_true, if_pos rfl, ih]
      rfl

theorem valuesOf_withOption_of_ne {name : String} (hname : standsAlone (.ofString name) = false)
    (hne : Text.ofString name ≠ option) (values words : List Text) :
    valuesOf option (Renderer.withOption name values ++ words) = valuesOf option words := by
  induction values with
  | nil => rfl
  | cons value values ih =>
      show valuesOf _ (Text.ofString name :: value :: (Renderer.withOption name values ++ words)) = _
      rw [valuesOf, hname, if_neg Bool.false_ne_true, if_neg hne, ih]

end ValuesOf

end Command

namespace Renderer

open Command

variable {r : Renderer} {c : Config} {t : VariableTable} {w : World} {file : Text}
  (ht : c.externalVariables = .ok t)

theorem arguments_eq_ok_iff {words : List Text} :
    arguments c w file = .ok words ↔
      ∃ libraries table imports, c.libraries w.directory = .ok libraries ∧
        c.externalVariables = .ok table ∧ Ksonnet.imports w.files w.directory file = .ok imports ∧
        words = withOption "-J" libraries ++ withAssignments "--ext-str" table.toTexts ++
          withAssignments "--ext-code-file" imports ++ [file] := by
  constructor
  · intro h
    obtain ⟨libraries, hlibraries, h⟩ := bind_eq_ok_iff.1 h
    obtain ⟨table, htable, h⟩ := bind_eq_ok_iff.1 h
    obtain ⟨imports, himports, h⟩ := bind_eq_ok_iff.1 h
    exact ⟨_, _, _, mapError_eq_ok_iff.1 hlibraries, mapError_eq_ok_iff.1 htable,
      mapError_eq_ok_iff.1 himports, (Except.ok.inj h).symm⟩
  · rintro ⟨libraries, table, imports, hlibraries, htable, himports, rfl⟩
    rw [arguments, hlibraries, htable, himports]
    rfl

theorem command_eq_ok_iff {command : Command} :
    r.command c w file = .ok command ↔
      ∃ words, arguments c w file = .ok words ∧ ⟨r.executable,
        (if (c.get Config.yamlStream).isGiven then [Text.ofString "-y"] else []) ++ words⟩ =
          command := by
  simp only [Renderer.command, bind_eq_ok_iff, pure, Except.pure, Except.ok.injEq]

theorem kubecfgCommand_eq_ok_iff {command : Command} :
    r.kubecfgCommand c w file = .ok command ↔
      ∃ words, arguments c w file = .ok words ∧ ⟨r.kubecfg,
        [Text.ofString "show", Text.ofString "-o", Text.ofString "json"] ++ words⟩ = command := by
  simp only [kubecfgCommand, bind_eq_ok_iff, pure, Except.pure, Except.ok.injEq]

include ht

theorem valuesOf_arguments {words : List Text} (h : arguments c w file = .ok words) :
    words ≠ [] ∧ valuesOf (.ofString "--ext-str") words =
      t.toTexts.map fun (name, value) => Variables.assignment name value := by
  obtain ⟨libraries, table, imports, -, htable, -, rfl⟩ := arguments_eq_ok_iff.1 h
  cases ht.symm.trans htable
  refine ⟨List.append_ne_nil_of_right_ne_nil _ nofun, ?_⟩
  rw [List.append_assoc, List.append_assoc, valuesOf_withOption_of_ne rfl (by decide),
    withAssignments, valuesOf_withOption rfl, withAssignments,
    valuesOf_withOption_of_ne rfl (by decide)]
  exact List.append_nil _

theorem command_carries {command : Command} (h : r.command c w file = .ok command) :
    command.Carries t := by
  obtain ⟨words, hwords, rfl⟩ := command_eq_ok_iff.1 h
  obtain ⟨hne, hvalues⟩ := valuesOf_arguments ht hwords
  rw [Carries, Command.externals, ← hvalues]
  split
  · exact valuesOf_cons_of_standsAlone rfl hne
  · rfl

theorem kubecfgCommand_carries {command : Command} (h : r.kubecfgCommand c w file = .ok command) :
    command.Carries t := by
  obtain ⟨words, hwords, rfl⟩ := kubecfgCommand_eq_ok_iff.1 h
  have hformat : valuesOf (.ofString "--ext-str")
      (withOption "-o" [.ofString "json"] ++ words) = valuesOf (.ofString "--ext-str") words :=
    valuesOf_withOption_of_ne rfl (by decide) _ words
  rw [Carries, Command.externals, ← (valuesOf_arguments ht hwords).2, ← hformat]
  exact valuesOf_cons_of_standsAlone rfl (List.cons_ne_nil _ _)

omit ht in
theorem runCommand_commands (c : Config) (w : World) (command : Command) :
    (runCommand c w command).2.commands = w.commands ∨
      (runCommand c w command).2.commands = w.commands ++ [command] := by
  rw [runCommand]
  cases wordsOf command with
  | error fault => exact .inl rfl
  | ok words => exact .inr rfl

end Renderer

/-- All that is run between two worlds carries the same variables. -/
def World.RunsWith (t : VariableTable) (w w' : World) : Prop :=
  ∃ ran, w'.commands = w.commands ++ ran ∧ ∀ command ∈ ran, command.Carries t

namespace World.RunsWith

variable {t : VariableTable} {w w' w'' : World}

theorem of_eq (h : w'.commands = w.commands) : RunsWith t w w' :=
  ⟨[], by rw [h, List.append_nil], nofun⟩

theorem trans (h : RunsWith t w w') (h' : RunsWith t w' w'') : RunsWith t w w'' := by
  obtain ⟨ran, hran, hcarries⟩ := h
  obtain ⟨ran', hran', hcarries'⟩ := h'
  refine ⟨ran ++ ran', by rw [hran', hran, List.append_assoc], fun command hcommand => ?_⟩
  exact (List.mem_append.1 hcommand).elim (hcarries command) (hcarries' command)

theorem runCommand {command : Command} (h : command.Carries t) (c : Config) (w : World) :
    RunsWith t w (Renderer.runCommand c w command).2 := by
  rcases Renderer.runCommand_commands c w command with hrun | hrun
  · exact of_eq hrun
  · exact ⟨[command], hrun, List.forall_mem_singleton.2 h⟩

end World.RunsWith

namespace Renderer

variable {r : Renderer} {c : Config} {t : VariableTable} (ht : c.externalVariables = .ok t)

include ht

theorem renderMain_carries (w : World) (file earlier : Text) :
    w.RunsWith t (r.renderMain c w file earlier).2 := by
  rw [renderMain]
  cases hcommand : r.command c w file with
  | error fault => exact .of_eq rfl
  | ok command =>
      simp only
      split
      · exact .runCommand (command_carries ht hcommand) c w
      · split
        · exact .of_eq rfl
        · split <;> exact .of_eq rfl

theorem render_carries (w : World) (file : Text) : w.RunsWith t (r.render c w file).2 := by
  rw [render]
  split
  next =>
    cases hcommand : r.kubecfgCommand c w file with
    | error fault => exact .of_eq rfl
    | ok command =>
        have hrun := World.RunsWith.runCommand (kubecfgCommand_carries ht hcommand) c w
        rcases hresult : runCommand c w command with ⟨fault | rendering, w'⟩
        · rw [hresult] at hrun
          simpa only [hresult] using hrun
        · rw [hresult] at hrun
          simp only [hresult]
          split
          · exact hrun
          · exact hrun.trans (renderMain_carries ht w' file _)
  next => exact renderMain_carries ht w file []

end Renderer

end JsonnetPreview
