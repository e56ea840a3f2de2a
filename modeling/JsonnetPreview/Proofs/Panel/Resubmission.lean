import JsonnetPreview.Proofs.Panel.Panes
import JsonnetPreview.Proofs.Session.Settings
import JsonnetPreview.Proofs.Variables.Format

namespace JsonnetPreview

namespace VariableTable

theorem ofTexts_of_distinct {externals : Table Text Text} (h : externals.Distinct) :
    ofTexts externals = externals.map fun e => (⟨.str e.1⟩, .str e.2) := by
  refine Table.ofPairs_of_distinct (List.pairwise_map.2 (h.imp fun {e f} hne => ?_))
  exact decide_eq_false (by simpa using hne)

theorem toTexts_ofTexts {externals : Table Text Text} (h : externals.Distinct) :
    (ofTexts externals).toTexts = externals := by
  rw [ofTexts_of_distinct h, toTexts, List.map_map]
  exact List.map_id _

end VariableTable

namespace Screen

theorem session_follow (x : Screen) (s : Session) : (x.follow s).1.session = s := by
  simp only [follow]
  split
  next => rfl
  next =>
    split
    next y hy => exact (setPanes_keeps hy).1
    next => rfl

/-- The popup is opened, and what it holds is submitted as it is. -/
def resubmit (x : Screen) : Screen := (x.openPopup.press .enter).1

theorem session_resubmit (x : Screen) :
    x.resubmit.session = x.session.setVariables
      (.ofTexts (Variables.parse (Variables.format x.session.state.externals.toTexts))) :=
  session_follow _ _

section Resubmit

open Variables

variable {externals : Table Text Text} (h : Named externals) {x : Screen}
  (hx : x.session.state.externals = .ofTexts externals)

include h hx

theorem settings_resubmit : x.resubmit.session.settings =
    (x.session.withVariables (.ofTexts (parse (format externals)))).settings := by
  rw [session_resubmit, hx, VariableTable.toTexts_ofTexts h.distinct,
    Session.setVariables_settings]

theorem externals_resubmit_eq_iff :
    x.resubmit.session.state.externals = x.session.state.externals ↔ Solid externals := by
  have hset : x.resubmit.session.state.externals = .ofTexts (parse (format externals)) :=
    congrArg (·.externals) (settings_resubmit h hx)
  rw [hset, hx, ← parse_format_eq_iff h]
  constructor
  · intro heq
    have htexts := congrArg VariableTable.toTexts heq
    rwa [VariableTable.toTexts_ofTexts (distinct_parse _),
      VariableTable.toTexts_ofTexts h.distinct] at htexts
  · intro heq
    rw [heq]

theorem command_resubmit (hs : Solid externals) (hreachable : Session.Reachable x.session)
    (r : Renderer) (w : World) (file : Text) :
    r.command x.resubmit.session.config w file = r.command x.session.config w file ∧
      r.kubecfgCommand x.resubmit.session.config w file =
        r.kubecfgCommand x.session.config w file := by
  have hset : x.resubmit.session.config = x.session.config.withVariables (.ofTexts externals) := by
    have := congrArg (·.config) (settings_resubmit h hx)
    rwa [parse_format h hs] at this
  have hagree : x.session.config.externalVariables = .ok x.session.state.externals :=
    Session.agree_of_reachable hreachable
  rw [hset]
  exact Renderer.command_withVariables (hx ▸ hagree) r w file

end Resubmit

/-- Variables can be shown and read back, and the popup can be submitted as it is, if and only if
there is no white space in them. -/
theorem resubmit_unchanged_iff {externals : Table Text Text} (h : Variables.Named externals) :
    (Variables.parse (Variables.format externals) = externals ↔ Variables.Solid externals) ∧
      ∀ x : Screen, Session.Reachable x.session →
        x.session.state.externals = .ofTexts externals →
        (x.resubmit.session.state.externals = x.session.state.externals ↔
          Variables.Solid externals) ∧
        (Variables.Solid externals → ∀ (r : Renderer) (w : World) (file : Text),
          r.command x.resubmit.session.config w file = r.command x.session.config w file ∧
            r.kubecfgCommand x.resubmit.session.config w file =
              r.kubecfgCommand x.session.config w file) := by
  refine ⟨Variables.parse_format_eq_iff h, fun x hreachable hx => ⟨?_, fun hs r w file => ?_⟩⟩
  · exact externals_resubmit_eq_iff h hx
  · exact command_resubmit h hx hs hreachable r w file

def sampleScreen (externals : Table Text Text) : Screen where
  session := Session.sampleSession.perform (.setVariables (.ofTexts externals))
  documents := ["main.jsonnet"]

theorem reachable_sampleScreen (externals : Table Text Text) :
    Session.Reachable (sampleScreen externals).session :=
  .perform (.setVariables (.ofTexts externals)) Session.reachable_sampleSession

theorem externals_sampleScreen (externals : Table Text Text) :
    (sampleScreen externals).session.state.externals = .ofTexts externals :=
  congrArg (·.externals) (Session.setVariables_settings Session.sampleSession (.ofTexts externals))

def solidVariables : Table Text Text := [("query", "a=b"), ("env", "")]

theorem resubmit_solidVariables :
    Variables.Named solidVariables ∧
      Variables.parse (Variables.format solidVariables) = solidVariables ∧
      (sampleScreen solidVariables).resubmit.session.state.externals =
        (sampleScreen solidVariables).session.state.externals := by
  have hnamed : Variables.Named solidVariables := by decide
  have hsolid : Variables.Solid solidVariables := by decide
  obtain ⟨hparse, hresubmit⟩ := resubmit_unchanged_iff hnamed
  have hscreen := hresubmit (sampleScreen solidVariables) (reachable_sampleScreen _)
    (externals_sampleScreen _)
  exact ⟨hnamed, hparse.2 hsolid, hscreen.1.2 hsolid⟩

def spacedVariables : Table Text Text := [("note", "two words")]

def readVariables : Table Text Text := [("note", "two")]

theorem resubmit_spacedVariables :
    Variables.Named spacedVariables ∧
      Variables.parse (Variables.format spacedVariables) = readVariables ∧
      (sampleScreen spacedVariables).session.state.externals = .ofTexts spacedVariables ∧
      (sampleScreen spacedVariables).resubmit.session.state.externals =
        .ofTexts readVariables := by
  have hnamed : Variables.Named spacedVariables := by decide
  have hparse : Variables.parse (Variables.format spacedVariables) = readVariables := by decide
  have hscreen := externals_sampleScreen spacedVariables
  refine ⟨hnamed, hparse, hscreen, ?_⟩
  rw [← hparse]
  exact congrArg (·.externals) (settings_resubmit hnamed hscreen)

end Screen

end JsonnetPreview
