import JsonnetPreview.Proofs.Config.Externals
import JsonnetPreview.Proofs.Renderer.Carried
import JsonnetPreview.Proofs.Session.Settings

namespace JsonnetPreview

namespace Session

/-- What is seen of a cycle: the commands that are run in it, and what it tells in the end. -/
structure Cycle where
  commands : List Command
  update : Update

def Cycle.Carries (x : Cycle) : Prop :=
  ∀ command ∈ x.commands, command.Carries x.update.state.externals

/-- A cycle lies between two sessions. -/
structure Cycle.Leads (x : Cycle) (s t : Session) : Prop where
  commands : t.world.commands = s.world.commands ++ x.commands
  updates : t.updates = s.updates ++ [x.update]

/-- Nothing is run between two sessions, and nothing is told. -/
structure Quiet (s t : Session) : Prop where
  commands : t.world.commands = s.world.commands
  updates : t.updates = s.updates

/-- The cycles in a row of moves. -/
inductive Cycles (s : Session) : Session → List Cycle → Prop
  | refl : Cycles s s []
  | quiet {t u : Session} {l : List Cycle} (h : Cycles s t l) (hmove : Move t u)
      (hquiet : Quiet t u) : Cycles s u l
  | cycle {t u : Session} {l : List Cycle} (h : Cycles s t l) (x : Cycle) (hmove : Move t u)
      (hx : x.Leads t u) : Cycles s u (l ++ [x])

def performs (s : Session) (actions : List Action) : Session := actions.foldl perform s

variable {s t : Session}

theorem moves_performs (s : Session) (actions : List Action) : Moves s (s.performs actions) := by
  induction actions generalizing s with
  | nil => exact .refl
  | cons a actions ih => exact (moves_perform s a).trans (ih (s.perform a))

theorem agree_of_moves (h : Moves s t) (hs : s.settings.Agree) : t.settings.Agree :=
  Moves.invariant (I := fun s => s.settings.Agree) agree_of_move h hs

theorem Cycle.Leads.unique {x y : Cycle} (hx : x.Leads s t) (hy : y.Leads s t) : x = y := by
  obtain ⟨ran, u⟩ := x
  obtain ⟨ran', u'⟩ := y
  obtain rfl : ran = ran' := List.append_cancel_left (hx.commands.symm.trans hy.commands)
  obtain rfl : u = u' := by simpa using hx.updates.symm.trans hy.updates
  rfl

theorem Quiet.not_leads (h : Quiet s t) (x : Cycle) : ¬x.Leads s t := by
  intro hx
  simpa using h.updates.symm.trans hx.updates

theorem exists_leads (hran : s.world.RunsWith t.state.externals t.world) (htells : s.Tells t) :
    ∃ x : Cycle, x.Leads s t ∧ x.Carries := by
  obtain ⟨ran, hcommands, hcarries⟩ := hran
  obtain ⟨fault, hupdates⟩ := htells
  exact ⟨⟨ran, _⟩, ⟨hcommands, hupdates⟩, hcarries⟩

theorem runsWith_of_refreshes (h : Refreshes s t) (hs : s.settings.Agree) :
    s.world.RunsWith t.state.externals t.world := by
  have hexternals : t.state.externals = s.state.externals :=
    congrArg Settings.externals (settings_of_refreshes h)
  have hrun : s.world.RunsWith s.state.externals
      (s.renderer.render s.config s.world s.state.path).2 := Renderer.render_carries hs _ _
  rw [hexternals]
  cases h with
  | unread fault => exact .of_eq (endCycle_commands s _)
  | unrendered text fault world hread hrender =>
      rw [hrender] at hrun
      exact hrun.trans (.of_eq (endCycle_commands (s.asked text world) _))
  | rendered text r world hread hrender =>
      rw [hrender] at hrun
      exact hrun.trans
        (.of_eq (applyPayload_commands ((s.asked text world).keep (.ofOutcome r.output r.report)) _))

theorem Move.quiet_or_leads (h : Move s t) (hs : s.settings.Agree) :
    Quiet s t ∨ ∃ x : Cycle, x.Leads s t ∧ x.Carries := by
  cases h with
  | refresh h => exact .inr (exists_leads (runsWith_of_refreshes h hs) (tells_refreshes h))
  | replay name p =>
      exact .inr (exists_leads (.of_eq (applyPayload_commands (s.withFormat name) p))
        (tells_applyPayload (s.withFormat name) p))
  | select | override | format | watcher | environment => exact .inl ⟨rfl, rfl⟩

theorem exists_cycles (h : Moves s t) (hs : s.settings.Agree) : ∃ l, Cycles s t l := by
  induction h with
  | refl => exact ⟨[], .refl⟩
  | tail hmoves hmove ih =>
      obtain ⟨l, hl⟩ := ih
      rcases hmove.quiet_or_leads (agree_of_moves hmoves hs) with hquiet | ⟨x, hx, -⟩
      · exact ⟨l, hl.quiet hmove hquiet⟩
      · exact ⟨l ++ [x], hl.cycle x hmove hx⟩

namespace Cycles

variable {l : List Cycle}

theorem moves (h : Cycles s t l) : Moves s t := by
  induction h with
  | refl => exact .refl
  | quiet _ hmove _ ih | cycle _ _ hmove _ ih => exact ih.tail hmove

theorem complete (h : Cycles s t l) :
    t.world.commands = s.world.commands ++ l.flatMap (·.commands) ∧
      t.updates = s.updates ++ l.map (·.update) := by
  induction h with
  | refl => exact ⟨(List.append_nil _).symm, (List.append_nil _).symm⟩
  | quiet _ _ hquiet ih =>
      rw [hquiet.commands, hquiet.updates]
      exact ih
  | cycle _ x _ hx ih =>
      rw [hx.commands, hx.updates, ih.1, ih.2]
      simp

theorem carries (h : Cycles s t l) (hs : s.settings.Agree) : ∀ x ∈ l, x.Carries := by
  induction h with
  | refl => exact nofun
  | quiet _ _ _ ih => exact ih
  | cycle h x hmove hx ih =>
      refine List.forall_mem_append.2 ⟨ih, List.forall_mem_singleton.2 ?_⟩
      rcases hmove.quiet_or_leads (agree_of_moves h.moves hs) with hquiet | ⟨y, hy, hcarries⟩
      · exact absurd hx (hquiet.not_leads x)
      · exact hx.unique hy ▸ hcarries

end Cycles

/-- Whatever is done with a session, the variables that it shows are those of the configuration, and
they are the ones that were given last. Each cycle runs all its commands with the variables that it
shows in the end. -/
theorem carries_of_performs {config : Config} {pairs : List (Text × Text)}
    (hconfig : config.HasTexts pairs) (path : Text) (w : World) :
    ∃ s, create path config w = .ok s ∧ s.state.externals = .ofTexts pairs ∧
      ∀ actions,
        (s.performs actions).config.externalVariables = .ok (s.performs actions).state.externals ∧
        (∀ t, ((s.performs actions).perform (.setVariables t)).state.externals = t) ∧
        (∃ l, Cycles s (s.performs actions) l) ∧
        ∀ l, Cycles s (s.performs actions) l →
          (s.performs actions).world.commands = s.world.commands ++ l.flatMap (·.commands) ∧
          (s.performs actions).updates = l.map (·.update) ∧
          ∀ x ∈ l, ∀ command ∈ x.commands, command.Carries x.update.state.externals := by
  obtain ⟨s, hs, hexternals⟩ : ∃ s, create path config w = .ok s ∧
      s.state.externals = .ofTexts pairs := by
    rw [create, hconfig.externalVariables]
    exact ⟨_, rfl, rfl⟩
  have hagree := agree_of_create hs
  refine ⟨s, hs, hexternals, fun actions => ⟨?_, fun t => ?_, ?_, fun l hl => ?_⟩⟩
  · exact agree_of_moves (moves_performs s actions) hagree
  · exact congrArg Settings.externals (setVariables_settings (s.performs actions) t)
  · exact exists_cycles (moves_performs s actions) hagree
  · obtain ⟨hcommands, hupdates⟩ := hl.complete
    rw [(create_fresh hs).2, List.nil_append] at hupdates
    exact ⟨hcommands, hupdates, hl.carries hagree⟩

def taggedConfig : Config :=
  Config.defaults.set Config.externals (.obj [("env", .str "prod"), ("query", .str "a=b")])

def taggedWords : List Text := ["env=prod", "query=a=b"]

theorem hasTexts_taggedConfig : taggedConfig.HasTexts [("env", "prod"), ("query", "a=b")] :=
  .setting rfl rfl

theorem carries_of_performs_taggedConfig :
    taggedConfig.HasTexts [("env", "prod"), ("query", "a=b")] ∧
      ∃ s, create "main.jsonnet" taggedConfig sampleWorld = .ok s ∧
        (s.performs [.refresh]).world.commands.map Command.externals = [taggedWords] ∧
        (s.performs [.refresh, .setVariables []]).state.externals = [] ∧
        (s.performs [.refresh, .setVariables []]).world.commands.map Command.externals =
          [taggedWords, []] := by
  refine ⟨hasTexts_taggedConfig, ?_⟩
  obtain ⟨s, hs, -, hactions⟩ :=
    carries_of_performs hasTexts_taggedConfig "main.jsonnet" sampleWorld
  refine ⟨s, hs, ?_, (hactions [.refresh]).2.1 [], ?_⟩
  all_goals
    cases hs
    rfl

end Session

end JsonnetPreview
