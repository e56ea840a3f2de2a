import JsonnetPreview.Proofs.Renderer.Arguments
import JsonnetPreview.Proofs.Report.Banner

namespace JsonnetPreview

namespace RunOutcome

/-- What a run printed, if it ended with the code zero. -/
def output? : RunOutcome → Option Text
  | exited code output _ => if code = 0 then some output else none
  | _ => none

def isFailure : RunOutcome → Bool
  | exited code _ _ => code ≠ 0
  | timedOut => true
  | refused _ => true
  | raised _ => false

end RunOutcome

/-- A run of a program as it would be made next: its words, and what comes of it. -/
structure Attempt where
  name : Text
  arguments : List Text
  outcome : RunOutcome

namespace Attempt

def words (a : Attempt) : List Text := a.name :: a.arguments

def command (a : Attempt) : Command := ⟨.str a.name, a.arguments⟩

def output? (a : Attempt) : Option Text := a.outcome.output?

def fails (a : Attempt) : Bool := a.outcome.isFailure

def result (timeout : Json) (a : Attempt) : Except CommandFault Rendering :=
  Renderer.judge timeout a.words a.outcome

def missingReport (a : Attempt) : Text :=
  failureReport a.words ("could not find '" ++ a.name ++ "' command on path")

def IsBlank (a : Attempt) : Prop := a.fails ∨ a.output? = some []

/-- What comes of a run: an output, a failure that is reported on, or something that is raised. -/
inductive Comes (timeout : Json) (a : Attempt) : Prop
  | output (output : Text) (h : a.output? = some output) (hfails : a.fails = false)
      (hresult : a.result timeout = .ok ⟨output, []⟩)
  | failure (detail : Text) (h : a.output? = none) (hfails : a.fails)
      (hresult : a.result timeout = .ok ⟨[], failureReport a.words detail⟩)
  | raised (message : Text) (hraised : a.outcome = .raised message) (h : a.output? = none)
      (hfails : a.fails = false) (hresult : a.result timeout = .error (.run message))

variable {a : Attempt} {timeout : Json}

theorem comes (timeout : Json) (a : Attempt) : a.Comes timeout := by
  cases houtcome : a.outcome with
  | exited code output errors =>
      by_cases hcode : code = 0
      · refine .output output ?_ ?_ ?_ <;>
          simp [output?, fails, result, houtcome, hcode, RunOutcome.output?, RunOutcome.isFailure,
            Renderer.judge]
      · refine .failure errors ?_ ?_ ?_ <;>
          simp [output?, fails, result, houtcome, hcode, RunOutcome.output?, RunOutcome.isFailure,
            Renderer.judge]
  | timedOut =>
      refine .failure ("timed out after " ++ timeout.display ++ " seconds") ?_ ?_ ?_ <;>
        simp [output?, fails, result, houtcome, RunOutcome.output?, RunOutcome.isFailure,
          Renderer.judge]
  | refused fault =>
      refine .failure fault.message ?_ ?_ ?_ <;>
        simp [output?, fails, result, houtcome, RunOutcome.output?, RunOutcome.isFailure,
          Renderer.judge]
  | raised message =>
      refine .raised message houtcome ?_ ?_ ?_ <;>
        simp [output?, fails, result, houtcome, RunOutcome.output?, RunOutcome.isFailure,
          Renderer.judge]

theorem result_of_output {output : Text} (h : a.output? = some output) :
    a.result timeout = .ok ⟨output, []⟩ := by
  cases a.comes timeout with
  | output output' houtput _ hresult =>
      cases h.symm.trans houtput
      exact hresult
  | failure _ hnone | raised _ _ hnone => cases h.symm.trans hnone

theorem exists_result_of_fails (h : a.fails) (timeout : Json) :
    ∃ detail, a.result timeout = .ok ⟨[], failureReport a.words detail⟩ := by
  cases a.comes timeout with
  | failure detail _ _ hresult => exact ⟨detail, hresult⟩
  | output _ _ hfails | raised _ _ _ hfails => cases h.symm.trans hfails

def earlierReport (timeout : Json) : Option Attempt → Text
  | none => []
  | some k => ((k.result timeout).map Rendering.report).toOption.getD []

end Attempt

/-- What comes of two runs, and which of them are made. -/
inductive Chain (timeout : Json) (available : Bool) (kubecfg? : Option Attempt) (main : Attempt) :
    Except CommandFault Rendering → List Attempt → Prop
  | kubecfg (k output) (hk : kubecfg? = some k) (houtput : k.output? = some output)
      (hne : output ≠ []) : Chain timeout available kubecfg? main (.ok ⟨output, []⟩) [k]
  | raised (k message) (hk : kubecfg? = some k) (hraised : k.outcome = .raised message) :
      Chain timeout available kubecfg? main (.error (.run message)) [k]
  | main (hblank : ∀ k ∈ kubecfg?, k.IsBlank) (havailable : available = true) :
      Chain timeout available kubecfg? main (main.result timeout) (kubecfg?.toList ++ [main])
  | report (k) (hk : kubecfg? = some k) (hfail : k.fails) (hmissing : available = false) :
      Chain timeout available kubecfg? main (k.result timeout) [k]
  | missing (hempty : ∀ k ∈ kubecfg?, k.output? = some []) (hmissing : available = false) :
      Chain timeout available kubecfg? main (.ok ⟨[], main.missingReport⟩) kubecfg?.toList

def World.ran (w : World) (attempts : List Attempt) : World :=
  { w with commands := w.commands ++ attempts.map Attempt.command }

namespace Renderer

def kubecfgAttempt? (r : Renderer) (w : World) (arguments : List Text) : Option Attempt :=
  if r.kubecfg.isGiven then
    some ⟨r.kubecfg.display,
      [Text.ofString "show", Text.ofString "-o", Text.ofString "json"] ++ arguments,
      w.outcomes w.commands.length⟩
  else none

def mainAttempt (r : Renderer) (c : Config) (w : World) (arguments : List Text) : Attempt where
  name := r.executable.display
  arguments :=
    (if (c.get Config.yamlStream).isGiven then [Text.ofString "-y"] else []) ++ arguments
  outcome := w.outcomes (w.commands.length + (r.kubecfgAttempt? w arguments).toList.length)

variable {r : Renderer} {c : Config} {w : World} {file : Text} {arguments : List Text}

theorem command_ran (hr : r.IsNamed) (h : Renderer.arguments c w file = .ok arguments)
    (attempts : List Attempt) :
    r.command c (w.ran attempts) file = .ok (r.mainAttempt c w arguments).command := by
  obtain ⟨name, hname⟩ := hr.executable
  have harguments : Renderer.arguments c (w.ran attempts) file = .ok arguments := h
  simp only [command, harguments, mainAttempt, Attempt.command, hname]
  rfl

theorem kubecfgCommand_of_attempt (hr : r.IsNamed)
    (h : Renderer.arguments c w file = .ok arguments) {k : Attempt}
    (hk : r.kubecfgAttempt? w arguments = some k) :
    r.kubecfg.isGiven = true ∧ r.kubecfgCommand c w file = .ok k.command ∧
      w.outcomes w.commands.length = k.outcome := by
  rw [kubecfgAttempt?] at hk
  split at hk
  next hgiven =>
    obtain ⟨name, hname⟩ := hr.kubecfg hgiven
    cases hk
    refine ⟨hgiven, ?_, rfl⟩
    simp only [kubecfgCommand, h, Attempt.command, hname]
    rfl
  next => cases hk

theorem runCommand_attempt {a : Attempt} (h : w.outcomes w.commands.length = a.outcome)
    (c : Config) :
    runCommand c w a.command = (a.result (c.get Config.timeout), w.ran [a]) := by
  simp only [runCommand, wordsOf, Attempt.command, World.run, h]
  rfl

section Main

variable {m : Attempt} (hcommand : r.command c w file = .ok m.command)
include hcommand

theorem renderMain_of_available (houtcome : w.outcomes w.commands.length = m.outcome)
    (h : r.isAvailable w = true) (earlier : Text) :
    r.renderMain c w file earlier = (m.result (c.get Config.timeout), w.ran [m]) := by
  simp only [renderMain, hcommand, h, if_true]
  exact runCommand_attempt houtcome c

theorem renderMain_of_report (h : r.isAvailable w = false) {earlier : Text} (hne : earlier ≠ []) :
    r.renderMain c w file earlier =
      (.ok ⟨[], earlier⟩, w.notice (.noFallback r.executable.display)) := by
  have hempty : earlier.isEmpty = false := List.isEmpty_eq_false_iff.2 hne
  simp only [renderMain, hcommand, h, hempty, Bool.false_eq_true, if_false, Bool.not_false, if_true]

theorem renderMain_of_missing (h : r.isAvailable w = false)
    (hname : m.name = r.executable.display) :
    r.renderMain c w file [] = (.ok ⟨[], m.missingReport⟩, w) := by
  simp only [renderMain, hcommand, h, List.isEmpty_nil, Bool.false_eq_true, if_false, Bool.not_true,
    wordsOf, Attempt.command, Attempt.missingReport, Attempt.words, hname]

end Main

theorem render_of_prints (hr : r.IsNamed) (h : Renderer.arguments c w file = .ok arguments)
    {k : Attempt} (hk : r.kubecfgAttempt? w arguments = some k) {output : Text}
    (houtput : k.output? = some output) (hne : output ≠ []) :
    r.render c w file = (.ok ⟨output, []⟩, w.ran [k]) := by
  obtain ⟨hgiven, hcommand, houtcome⟩ := kubecfgCommand_of_attempt hr h hk
  have hshown : (([] : Text).isEmpty && !output.isEmpty) = true := by simpa using hne
  rw [render, if_pos hgiven, hcommand]
  simp only [runCommand_attempt houtcome c, Attempt.result_of_output houtput, hshown, if_true]

theorem render_of_raised (hr : r.IsNamed) (h : Renderer.arguments c w file = .ok arguments)
    {k : Attempt} (hk : r.kubecfgAttempt? w arguments = some k) {message : Text}
    (hraised : k.outcome = .raised message) :
    r.render c w file = (.error (.run message), w.ran [k]) := by
  obtain ⟨hgiven, hcommand, houtcome⟩ := kubecfgCommand_of_attempt hr h hk
  have hresult : k.result (c.get Config.timeout) = .error (.run message) := by
    rw [Attempt.result, hraised, judge]
  rw [render, if_pos hgiven, hcommand]
  simp only [runCommand_attempt houtcome c, hresult]

theorem render_of_isBlank (hr : r.IsNamed) (h : Renderer.arguments c w file = .ok arguments)
    (hblank : ∀ k ∈ r.kubecfgAttempt? w arguments, k.IsBlank) :
    r.render c w file =
      r.renderMain c (w.ran (r.kubecfgAttempt? w arguments).toList) file
        (Attempt.earlierReport (c.get Config.timeout) (r.kubecfgAttempt? w arguments)) := by
  cases hk : r.kubecfgAttempt? w arguments with
  | none =>
      have hgiven : ¬ r.kubecfg.isGiven = true := by
        intro hgiven
        simp [kubecfgAttempt?, hgiven] at hk
      rw [render, if_neg hgiven, Option.toList_none, World.ran, List.map_nil, List.append_nil]
      rfl
  | some k =>
      obtain ⟨hgiven, hcommand, houtcome⟩ := kubecfgCommand_of_attempt hr h hk
      obtain ⟨rendering, hresult, hturn⟩ :
          ∃ rendering, k.result (c.get Config.timeout) = .ok rendering ∧
            (rendering.report.isEmpty && !rendering.output.isEmpty) = false := by
        rcases hblank k hk with hfails | hempty
        · obtain ⟨detail, hdetail⟩ := Attempt.exists_result_of_fails hfails (c.get Config.timeout)
          exact ⟨_, hdetail, by simp⟩
        · exact ⟨_, Attempt.result_of_output hempty, rfl⟩
      rw [render, if_pos hgiven, hcommand]
      simp only [runCommand_attempt houtcome c, Attempt.earlierReport, hresult, hturn,
        Bool.false_eq_true, if_false]
      rfl

/-- A render shows what the chain of its two runs shows, and makes the runs of that chain. -/
def IsChained (r : Renderer) (c : Config) (w : World) (file : Text) (arguments : List Text) :
    Prop :=
  ∃ result w' ran, r.render c w file = (result, w') ∧
    w'.commands = w.commands ++ ran.map Attempt.command ∧
    Chain (c.get Config.timeout) (r.isAvailable w) (r.kubecfgAttempt? w arguments)
      (r.mainAttempt c w arguments) result ran

theorem isChained_of_available (hr : r.IsNamed)
    (h : Renderer.arguments c w file = .ok arguments)
    (hblank : ∀ k ∈ r.kubecfgAttempt? w arguments, k.IsBlank)
    (havailable : r.isAvailable w = true) : r.IsChained c w file arguments := by
  have hcommand := command_ran hr h (r.kubecfgAttempt? w arguments).toList
  have houtcome : (w.ran (r.kubecfgAttempt? w arguments).toList).outcomes
      (w.ran (r.kubecfgAttempt? w arguments).toList).commands.length =
        (r.mainAttempt c w arguments).outcome := by
    rw [World.ran, List.length_append, List.length_map]
    rfl
  have hmain := renderMain_of_available hcommand houtcome havailable
    (Attempt.earlierReport (c.get Config.timeout) (r.kubecfgAttempt? w arguments))
  refine ⟨_, _, _, (render_of_isBlank hr h hblank).trans hmain, ?_, .main hblank havailable⟩
  simp only [World.ran, List.map_append, List.append_assoc]

theorem isChained_of_missing (hr : r.IsNamed)
    (h : Renderer.arguments c w file = .ok arguments)
    (hblank : ∀ k ∈ r.kubecfgAttempt? w arguments, k.IsBlank)
    (hmissing : r.isAvailable w = false) : r.IsChained c w file arguments := by
  have hcommand := command_ran hr h (r.kubecfgAttempt? w arguments).toList
  rw [IsChained, render_of_isBlank hr h hblank]
  cases hk : r.kubecfgAttempt? w arguments with
  | none =>
      rw [hk] at hcommand
      exact ⟨_, _, [], renderMain_of_missing hcommand hmissing rfl, rfl,
        .missing (by simp) hmissing⟩
  | some k =>
      rw [hk] at hcommand
      rcases hblank k hk with hfails | hempty
      · have hchain : Chain (c.get Config.timeout) (r.isAvailable w) (some k)
            (r.mainAttempt c w arguments) (k.result (c.get Config.timeout)) [k] :=
          .report k rfl hfails hmissing
        obtain ⟨detail, hdetail⟩ := Attempt.exists_result_of_fails hfails (c.get Config.timeout)
        rw [hdetail] at hchain
        rw [Attempt.earlierReport, hdetail]
        exact ⟨_, _, [k],
          renderMain_of_report hcommand hmissing (failureReport_ne_nil _ _), rfl, hchain⟩
      · rw [Attempt.earlierReport, Attempt.result_of_output hempty]
        exact ⟨_, _, [k], renderMain_of_missing hcommand hmissing rfl, rfl,
          .missing (by simpa using hempty) hmissing⟩

theorem isChained (hr : r.IsNamed) (h : Renderer.arguments c w file = .ok arguments) :
    r.IsChained c w file arguments := by
  by_cases hblank : ∀ k ∈ r.kubecfgAttempt? w arguments, k.IsBlank
  · cases hfound : r.isAvailable w with
    | true => exact isChained_of_available hr h hblank hfound
    | false => exact isChained_of_missing hr h hblank hfound
  · obtain ⟨k, hk, hnot⟩ : ∃ k, r.kubecfgAttempt? w arguments = some k ∧ ¬ k.IsBlank := by
      simpa using hblank
    cases k.comes (c.get Config.timeout) with
    | output output houtput =>
        have hne : output ≠ [] := fun he => hnot (.inr (he ▸ houtput))
        exact ⟨_, _, [k], render_of_prints hr h hk houtput hne, rfl,
          .kubecfg k output hk houtput hne⟩
    | failure _ _ hfails => exact absurd (.inl hfails) hnot
    | raised message hraised =>
        exact ⟨_, _, [k], render_of_raised hr h hk hraised, rfl, .raised k message hk hraised⟩

end Renderer

end JsonnetPreview
