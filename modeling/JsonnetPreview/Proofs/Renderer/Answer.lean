import JsonnetPreview.Proofs.Renderer.Chain
import JsonnetPreview.Proofs.Session.Reachable

namespace JsonnetPreview

namespace Attempt

def prints (a : Attempt) : Bool := a.output?.any (!·.isEmpty)

variable {a : Attempt} {timeout : Json}

theorem prints_eq_true_iff : a.prints = true ↔ ∃ output, a.output? = some output ∧ output ≠ [] := by
  cases h : a.output? <;> simp [prints, h]

theorem output?_of_fails (h : a.fails) : a.output? = none := by
  cases a.comes .null with
  | failure _ hnone => exact hnone
  | output _ _ hfails | raised _ _ _ hfails => cases h.symm.trans hfails

theorem IsBlank.prints (h : a.IsBlank) : a.prints = false := by
  rw [Bool.eq_false_iff, ne_eq, prints_eq_true_iff]
  rintro ⟨output, houtput, hne⟩
  rcases h with hfails | hempty
  · cases (output?_of_fails hfails).symm.trans houtput
  · cases hempty.symm.trans houtput
    exact hne rfl

theorem result_eq_error_iff {e : CommandFault} : a.result timeout = .error e ↔
    ∃ message, a.outcome = .raised message ∧ e = .run message := by
  constructor
  · intro he
    cases a.comes timeout with
    | output _ _ _ hresult | failure _ _ _ hresult => cases he.symm.trans hresult
    | raised message hraised _ _ hresult =>
        cases he.symm.trans hresult
        exact ⟨message, hraised, rfl⟩
  · rintro ⟨message, hraised, rfl⟩
    rw [result, hraised, Renderer.judge]

theorem exists_raised_iff {ran : List Attempt} (ha : ran.getLast? = some a) (timeout : Json)
    (e : CommandFault) :
    (∃ b message, ran.getLast? = some b ∧ b.outcome = .raised message ∧ e = .run message) ↔
      a.result timeout = .error e := by
  simp [result_eq_error_iff, ha]

theorem report_ne_nil_iff {x : Rendering} (h : a.result timeout = .ok x) :
    x.report ≠ [] ↔ a.fails := by
  cases a.comes timeout with
  | output _ _ hfails hresult =>
      cases h.symm.trans hresult
      simp [hfails]
  | failure _ _ hfails hresult =>
      cases h.symm.trans hresult
      simpa [hfails] using failureReport_ne_nil _ _
  | raised _ _ _ _ hresult => cases h.symm.trans hresult

/-- The run that decides what is shown: kubecfg's if it printed something, and else the other one if
its program can be found. -/
def deciding? (available : Bool) (kubecfg? : Option Attempt) (main : Attempt) : Option Attempt :=
  (kubecfg?.filter prints).or (if available then some main else none)

theorem deciding?_of_prints {k : Attempt} (h : k.prints = true) (available : Bool)
    (main : Attempt) : deciding? available (some k) main = some k := by
  rw [deciding?, Option.filter_some_pos h, Option.some_or]

theorem deciding?_of_isBlank {kubecfg? : Option Attempt} (h : ∀ k ∈ kubecfg?, k.IsBlank)
    (available : Bool) (main : Attempt) :
    deciding? available kubecfg? main = if available then some main else none := by
  have hfilter : kubecfg?.filter Attempt.prints = none := by
    rw [Option.filter_eq_none_iff]
    intro k hk
    rw [(h k hk).prints]
    exact Bool.false_ne_true
  rw [deciding?, hfilter, Option.none_or]

end Attempt

/-- The output of the last run, which ended with the code zero, or a report on one of the commands
and no output. -/
def Rendering.IsAnswer (attempts ran : List Attempt) (x : Rendering) : Prop :=
  (x.report = [] ∧ ∃ last, ran.getLast? = some last ∧ last.output? = some x.output) ∨
    (x.output = [] ∧ x.report ≠ [] ∧
      ∃ a ∈ attempts, ∃ detail, x.report = failureReport a.words detail)

theorem Attempt.isAnswer_of_result {attempts : List Attempt} {a : Attempt} (ha : a ∈ attempts)
    {timeout : Json} {x : Rendering} (h : a.result timeout = .ok x) (before : List Attempt) :
    x.IsAnswer attempts (before ++ [a]) := by
  cases a.comes timeout with
  | output output houtput _ hresult =>
      cases h.symm.trans hresult
      exact .inl ⟨rfl, a, List.getLast?_concat, houtput⟩
  | failure detail _ _ hresult =>
      cases h.symm.trans hresult
      exact .inr ⟨rfl, failureReport_ne_nil _ _, a, ha, detail, rfl⟩
  | raised _ _ _ _ hresult => cases h.symm.trans hresult

variable {timeout : Json} {available : Bool} {kubecfg? : Option Attempt} {main : Attempt}
  {result : Except CommandFault Rendering} {rendering : Rendering} {ran : List Attempt}

namespace Chain

variable (h : Chain timeout available kubecfg? main result ran)
include h

theorem runs : ran.Sublist (kubecfg?.toList ++ [main]) := by
  cases h with
  | kubecfg k _ hk | raised k _ hk | report k hk =>
      rw [hk]
      exact List.sublist_append_left [k] [main]
  | main => exact List.Sublist.refl _
  | missing => exact List.sublist_append_left _ _

theorem raised_iff (e : CommandFault) : result = .error e ↔
    ∃ a message, ran.getLast? = some a ∧ a.outcome = .raised message ∧ e = .run message := by
  have hone (k : Attempt) : [k].getLast? = some k := rfl
  cases h with
  | kubecfg k output hk houtput =>
      rw [Attempt.exists_raised_iff (hone k) timeout, Attempt.result_of_output houtput]
  | raised k message hk hraised =>
      rw [Attempt.exists_raised_iff (hone k) timeout,
        Attempt.result_eq_error_iff.2 ⟨message, hraised, rfl⟩]
  | main => rw [Attempt.exists_raised_iff List.getLast?_concat timeout]
  | report k => rw [Attempt.exists_raised_iff (hone k) timeout]
  | missing hempty =>
      refine iff_of_false nofun ?_
      rintro ⟨k, message, hk, hraised, -⟩
      have houtput := hempty k (Option.mem_toList.1 (List.mem_of_getLast? hk))
      simp [Attempt.output?, hraised, RunOutcome.output?] at houtput

theorem isAnswer (hok : result = .ok rendering) :
    rendering.IsAnswer (kubecfg?.toList ++ [main]) ran := by
  cases h with
  | kubecfg k output hk houtput =>
      cases hok
      exact .inl ⟨rfl, k, rfl, houtput⟩
  | raised => cases hok
  | main => exact Attempt.isAnswer_of_result (by simp) hok _
  | report k hk => exact Attempt.isAnswer_of_result (by simp [hk]) hok []
  | missing =>
      cases hok
      exact .inr ⟨rfl, failureReport_ne_nil _ _, main, by simp, _, rfl⟩

theorem result_of_mem (hmain : ∀ k ∈ kubecfg?, k.words ≠ main.words) (hmem : main ∈ ran) :
    result = main.result timeout := by
  have hne : ∀ k ∈ kubecfg?, main ≠ k := by
    rintro k hk rfl
    exact hmain main hk rfl
  cases h with
  | kubecfg k _ hk | raised k _ hk | report k hk =>
      exact absurd (List.mem_singleton.1 hmem) (hne k hk)
  | main => rfl
  | missing => exact absurd rfl (hne main (Option.mem_toList.1 hmem))

/-- The report of one run is never that of the other, for it names the words of its command. -/
theorem report_iff (hmain : ∀ k ∈ kubecfg?, k.words ≠ main.words) (k : Attempt)
    (hk : k ∈ kubecfg?) :
    (∃ x, result = .ok x ∧ x.report ≠ [] ∧
        (k.result timeout).map Rendering.report = .ok x.report) ↔
      (k.fails ∧ available = false) := by
  constructor
  · rintro ⟨x, hok, hne, hreport⟩
    obtain ⟨y, hy, hyreport⟩ : ∃ y, k.result timeout = .ok y ∧ y.report = x.report := by
      cases hresult : k.result timeout with
      | error => simp [hresult, Except.map] at hreport
      | ok y => exact ⟨y, rfl, by simpa [hresult, Except.map] using hreport⟩
    have hfails : k.fails := (Attempt.report_ne_nil_iff hy).1 (hyreport ▸ hne)
    refine ⟨hfails, ?_⟩
    cases h with
    | kubecfg =>
        cases hok
        exact absurd rfl hne
    | raised => cases hok
    | main =>
        -- The report names the command of the other program, so it is not that of kubecfg.
        obtain ⟨detail, hdetail⟩ := Attempt.exists_result_of_fails hfails timeout
        obtain ⟨detail', hdetail'⟩ := Attempt.exists_result_of_fails
          ((Attempt.report_ne_nil_iff hok).1 hne) timeout
        cases hy.symm.trans hdetail
        cases hok.symm.trans hdetail'
        exact absurd (failureReport_inj hyreport).1 (hmain k hk)
    | report | missing => assumption
  · rintro ⟨hfails, hmissing⟩
    cases h with
    | kubecfg k' _ hk' houtput =>
        cases hk.symm.trans hk'
        cases (Attempt.output?_of_fails hfails).symm.trans houtput
    | raised k' _ hk' hraised =>
        cases hk.symm.trans hk'
        simp [Attempt.fails, hraised, RunOutcome.isFailure] at hfails
    | main _ havailable => cases hmissing.symm.trans havailable
    | report k' hk' =>
        cases hk.symm.trans hk'
        obtain ⟨detail, hdetail⟩ := Attempt.exists_result_of_fails hfails timeout
        exact ⟨_, hdetail, failureReport_ne_nil _ _, by rw [hdetail]; rfl⟩
    | missing hempty => cases (Attempt.output?_of_fails hfails).symm.trans (hempty k hk)

theorem output_iff (k : Attempt) (hk : k ∈ kubecfg?) (output : Text) :
    (ran = [k] ∧ result = .ok ⟨output, []⟩) ↔ (k.output? = some output ∧ output ≠ []) := by
  constructor
  · rintro ⟨hran, hok⟩
    cases h with
    | kubecfg k' _ hk' houtput hne =>
        cases hk.symm.trans hk'
        cases hok
        exact ⟨houtput, hne⟩
    | raised => cases hok
    | main =>
        rw [hk] at hran
        simp at hran
    | report k' _ hfails => exact absurd rfl ((Attempt.report_ne_nil_iff hok).2 hfails)
    | missing =>
        exact absurd (congrArg Rendering.report (Except.ok.inj hok)) (failureReport_ne_nil _ _)
  · rintro ⟨houtput, hne⟩
    have hprints : k.prints = true := Attempt.prints_eq_true_iff.2 ⟨output, houtput, hne⟩
    cases h with
    | kubecfg k' output' hk' houtput' =>
        cases hk.symm.trans hk'
        cases houtput.symm.trans houtput'
        exact ⟨rfl, rfl⟩
    | raised k' _ hk' hraised =>
        cases hk.symm.trans hk'
        simp [Attempt.output?, hraised, RunOutcome.output?] at houtput
    | main hblank => cases hprints.symm.trans (hblank k hk).prints
    | report k' hk' hfails =>
        cases hk.symm.trans hk'
        cases hprints.symm.trans (Attempt.IsBlank.prints (.inl hfails))
    | missing hempty => cases hprints.symm.trans (Attempt.IsBlank.prints (.inr (hempty k hk)))

theorem deciding (hok : result = .ok rendering) :
    (∃ a, Attempt.deciding? available kubecfg? main = some a ∧
      a.result timeout = .ok rendering) ∨
    (Attempt.deciding? available kubecfg? main = none ∧ rendering.report ≠ []) := by
  cases h with
  | kubecfg k output hk houtput hne =>
      cases hok
      have hprints : k.prints = true := Attempt.prints_eq_true_iff.2 ⟨output, houtput, hne⟩
      exact .inl ⟨k, by rw [hk, Attempt.deciding?_of_prints hprints],
        Attempt.result_of_output houtput⟩
  | raised => cases hok
  | main hblank havailable =>
      exact .inl ⟨main, by rw [Attempt.deciding?_of_isBlank hblank, if_pos havailable], hok⟩
  | report k hk hfails hmissing =>
      have hblank : ∀ k ∈ kubecfg?, k.IsBlank := by
        intro k' hk'
        cases hk.symm.trans hk'
        exact .inl hfails
      exact .inr ⟨by rw [Attempt.deciding?_of_isBlank hblank, hmissing]; rfl,
        (Attempt.report_ne_nil_iff hok).2 hfails⟩
  | missing hempty hmissing =>
      cases hok
      have hblank : ∀ k ∈ kubecfg?, k.IsBlank := fun k hk => .inr (hempty k hk)
      exact .inr ⟨by rw [Attempt.deciding?_of_isBlank hblank, hmissing]; rfl,
        failureReport_ne_nil _ _⟩

theorem payload_of_chain (hok : result = .ok rendering) :
    (Payload.ofOutcome rendering.output rendering.report = .failure rendering.report ↔
      ∀ a ∈ Attempt.deciding? available kubecfg? main, a.fails) ∧
    ∀ a ∈ Attempt.deciding? available kubecfg? main, ∀ output, a.output? = some output →
      Payload.ofOutcome rendering.output rendering.report = .rendered output := by
  rcases h.deciding hok with ⟨a, ha, hresult⟩ | ⟨hnone, hne⟩
  · cases a.comes timeout with
    | output output houtput hfails hresult' =>
        cases hresult.symm.trans hresult'
        simp [Payload.ofOutcome, ha, houtput, hfails]
    | failure detail hnone hfails hresult' =>
        cases hresult.symm.trans hresult'
        simp [Payload.ofOutcome, ha, hnone, hfails, failureReport_ne_nil]
    | raised _ _ _ _ hresult' => cases hresult.symm.trans hresult'
  · simp [Payload.ofOutcome, hnone, hne]

end Chain

/-- What a render answers, by the two runs that it can make. -/
structure Chain.Answers (timeout : Json) (available : Bool) (kubecfg? : Option Attempt)
    (main : Attempt) (result : Except CommandFault Rendering) (ran : List Attempt) : Prop where
  runs : ran.Sublist (kubecfg?.toList ++ [main])
  raised : ∀ e, result = .error e ↔
    ∃ a message, ran.getLast? = some a ∧ a.outcome = .raised message ∧ e = .run message
  isAnswer : ∀ x, result = .ok x → x.IsAnswer (kubecfg?.toList ++ [main]) ran
  /-- Nothing of kubecfg's run is left where the other program is run. -/
  mainRun : main ∈ ran → result = main.result timeout
  /-- The report of kubecfg is kept. -/
  reportKept : ∀ k ∈ kubecfg?,
    (∃ x, result = .ok x ∧ x.report ≠ [] ∧
        (k.result timeout).map Rendering.report = .ok x.report) ↔
      (k.fails ∧ available = false)
  /-- The output of kubecfg is used. -/
  outputUsed : ∀ k ∈ kubecfg?, ∀ output,
    (ran = [k] ∧ result = .ok ⟨output, []⟩) ↔ (k.output? = some output ∧ output ≠ [])
  failure : ∀ x, result = .ok x → (Payload.ofOutcome x.output x.report = .failure x.report ↔
    ∀ a ∈ Attempt.deciding? available kubecfg? main, a.fails)
  rendered : ∀ x, result = .ok x → ∀ a ∈ Attempt.deciding? available kubecfg? main, ∀ output,
    a.output? = some output → Payload.ofOutcome x.output x.report = .rendered output

theorem Chain.answers (h : Chain timeout available kubecfg? main result ran)
    (hmain : ∀ k ∈ kubecfg?, k.words ≠ main.words) :
    Chain.Answers timeout available kubecfg? main result ran where
  runs := h.runs
  raised := h.raised_iff
  isAnswer := fun _ => h.isAnswer
  mainRun := h.result_of_mem hmain
  reportKept := h.report_iff hmain
  outputUsed := h.output_iff
  failure := fun _ hok => (h.payload_of_chain hok).1
  rendered := fun _ hok => (h.payload_of_chain hok).2

/-- The world in which the next run comes out in another way. -/
def World.answering (w : World) (outcome : RunOutcome) : World :=
  { w with outcomes := fun n => if n = w.commands.length then outcome else w.outcomes n }

namespace Renderer

/-- The commands that a render runs. -/
def commandsRun (r : Renderer) (c : Config) (w : World) (file : Text) : List Command :=
  (r.render c w file).2.commands.drop w.commands.length

variable {r : Renderer} {c : Config} {w : World} {file : Text} {arguments : List Text}

theorem length_arguments_ne {k : Attempt} (hk : k ∈ r.kubecfgAttempt? w arguments)
    (w' : World) : k.arguments.length ≠ (r.mainAttempt c w' arguments).arguments.length := by
  rw [kubecfgAttempt?] at hk
  split at hk
  · cases hk
    simp only [mainAttempt, List.length_append, List.length_cons, List.length_nil]
    split
    · rw [List.length_singleton]
      omega
    · rw [List.length_nil]
      omega
  · cases hk

theorem words_ne {k : Attempt} (hk : k ∈ r.kubecfgAttempt? w arguments) :
    k.words ≠ (r.mainAttempt c w arguments).words := by
  intro hwords
  exact length_arguments_ne hk w (congrArg List.length (List.cons.inj hwords).2)

theorem mainAttempt_answering (hgiven : r.kubecfg.isGiven = true) (outcome : RunOutcome) :
    r.mainAttempt c (w.answering outcome) arguments = r.mainAttempt c w arguments := by
  simp [mainAttempt, kubecfgAttempt?, hgiven, World.answering]

theorem render_of_mem_commandsRun (hr : r.IsNamed)
    (h : Renderer.arguments c w file = .ok arguments)
    (hmem : (r.mainAttempt c w arguments).command ∈ r.commandsRun c w file) :
    (r.render c w file).1 = (r.mainAttempt c w arguments).result (c.get Config.timeout) := by
  obtain ⟨result, w', ran, hrender, hcommands, hchain⟩ := isChained hr h
  rw [commandsRun, hrender, hcommands, List.drop_left] at hmem
  obtain ⟨a, ha, hcommand⟩ := List.mem_map.1 hmem
  have hlength : a.arguments.length = (r.mainAttempt c w arguments).arguments.length :=
    congrArg (fun c : Command => c.arguments.length) hcommand
  rcases List.mem_append.1 (hchain.runs.subset ha) with hk | hm
  · exact absurd hlength (length_arguments_ne (Option.mem_toList.1 hk) w)
  · obtain rfl := List.mem_singleton.1 hm
    rw [hrender, hchain.result_of_mem (fun k hk => words_ne hk) ha]

theorem render_answering (hr : r.IsNamed) (h : Renderer.arguments c w file = .ok arguments)
    (hgiven : r.kubecfg.isGiven = true) {command : Command}
    (hcommand : r.command c w file = .ok command) (outcome : RunOutcome)
    (hmem : command ∈ r.commandsRun c w file)
    (hmem' : command ∈ r.commandsRun c (w.answering outcome) file) :
    (r.render c (w.answering outcome) file).1 = (r.render c w file).1 := by
  have hmain : r.command c (w.ran []) file = .ok (r.mainAttempt c w arguments).command :=
    command_ran hr h []
  have hran : w.ran [] = w := by rw [World.ran, List.map_nil, List.append_nil]
  rw [hran, hcommand, Except.ok.injEq] at hmain
  subst hmain
  have h' : Renderer.arguments c (w.answering outcome) file = .ok arguments := h
  have hrender := render_of_mem_commandsRun hr h'
  rw [mainAttempt_answering hgiven] at hrender
  rw [render_of_mem_commandsRun hr h hmem, hrender hmem']

theorem renderDocument_cache {s : Session} {rendering : Rendering} {w' : World}
    (h : s.renderer.render s.config s.world s.state.path = (.ok rendering, w')) :
    s.renderDocument.cache =
      Cache.store s.state.path (.ofOutcome rendering.output rendering.report) := by
  simp only [Session.renderDocument, h, Session.applyPayload_cache]

theorem render_of_fault (hc : c.IsTyped) (r : Renderer) {fault : FileFault}
    (h : Ksonnet.imports w.files w.directory file = .error fault) :
    r.render c w file = (.error (.file fault), w) := by
  have harguments := arguments_eq_error hc h
  have hcommand : r.command c w file = .error (.file fault) := by
    rw [command, harguments]
    rfl
  have hkubecfg : r.kubecfgCommand c w file = .error (.file fault) := by
    rw [kubecfgCommand, harguments]
    rfl
  simp only [render, renderMain, hcommand, hkubecfg, ite_self]

/-- A render ends with an answer or with what its last run raises, unless the system objects to the
root of an app being looked for. -/
theorem render_answers (hr : r.IsNamed) (hc : c.IsTyped) (w : World) (file : Text) :
    (∃ e path, Ksonnet.imports w.files w.directory file = .error (.system e path) ∧
      w.files.Objects path e ∧ r.render c w file = (.error (.file (.system e path)), w)) ∨
    ∃ arguments result w' ran,
      Renderer.arguments c w file = .ok arguments ∧
      r.render c w file = (result, w') ∧
      w'.commands = w.commands ++ ran.map Attempt.command ∧
      Chain.Answers (c.get Config.timeout) (r.isAvailable w) (r.kubecfgAttempt? w arguments)
        (r.mainAttempt c w arguments) result ran ∧
      (∀ command outcome, r.kubecfg.isGiven = true → r.command c w file = .ok command →
        command ∈ r.commandsRun c w file →
        command ∈ r.commandsRun c (w.answering outcome) file →
        (r.render c (w.answering outcome) file).1 = result) ∧
      ∀ x, result = .ok x → ∀ s : Session, s.renderer = r → s.config = c → s.world = w →
        s.state.path = file →
        s.renderDocument.cache = Cache.store file (.ofOutcome x.output x.report) := by
  cases himports : Ksonnet.imports w.files w.directory file with
  | error fault =>
      obtain ⟨e, path, rfl, hobjects⟩ := Ksonnet.objects_of_imports himports
      exact .inl ⟨e, path, rfl, hobjects, render_of_fault hc r himports⟩
  | ok imports =>
      obtain ⟨arguments, harguments⟩ := exists_arguments hc himports
      obtain ⟨result, w', ran, hrender, hcommands, hchain⟩ := isChained hr harguments
      refine .inr ⟨arguments, result, w', ran, harguments, hrender, hcommands,
        hchain.answers fun k hk => words_ne hk, ?_, ?_⟩
      · intro command outcome hgiven hcommand hmem hmem'
        rw [render_answering hr harguments hgiven hcommand outcome hmem hmem', hrender]
      · rintro x rfl s rfl rfl rfl rfl
        exact renderDocument_cache hrender

def fallbackWorld : World :=
  { Session.sampleWorld with
    programs := ["jsonnet", "kubecfg"]
    outcomes := fun n => if n = 0 then .exited 1 "" "boom" else .exited 0 "[]" "" }

theorem isTyped_defaults : Config.defaults.IsTyped where
  executable := ⟨"jsonnet", rfl⟩
  kubecfg := fun h => absurd h (by decide)
  libraries := fun h => absurd h (by decide)
  externals := fun _ h => absurd h (by decide)
  folder := fun h => absurd h (by decide)

def fallbackRenderer : Renderer := (ofConfig .defaults fallbackWorld).1

def fallbackCommands : List Command :=
  [⟨.str "kubecfg", ["show", "-o", "json", "main.jsonnet"]⟩, ⟨.str "jsonnet", ["main.jsonnet"]⟩]

theorem render_answers_fallback :
    fallbackRenderer.IsNamed ∧ Config.defaults.IsTyped ∧
    fallbackRenderer.render .defaults fallbackWorld "main.jsonnet" =
      (.ok ⟨"[]", []⟩, { fallbackWorld with commands := fallbackCommands }) ∧
    ∃ ran, ran.map Attempt.command = fallbackCommands ∧
      Chain.Answers .null true (fallbackRenderer.kubecfgAttempt? fallbackWorld ["main.jsonnet"])
        (fallbackRenderer.mainAttempt .defaults fallbackWorld ["main.jsonnet"]) (.ok ⟨"[]", []⟩)
        ran := by
  have hnamed : fallbackRenderer.IsNamed := isNamed_ofConfig isTyped_defaults fallbackWorld
  have hrun : fallbackRenderer.render .defaults fallbackWorld "main.jsonnet" =
      (.ok ⟨"[]", []⟩, { fallbackWorld with commands := fallbackCommands }) := rfl
  refine ⟨hnamed, isTyped_defaults, hrun, ?_⟩
  have himports : Ksonnet.imports fallbackWorld.files fallbackWorld.directory "main.jsonnet" =
      .ok [] := rfl
  obtain ⟨e, path, hfault, -⟩ | ⟨arguments, result, w', ran, harguments, hrender, hcommands,
      hanswers, -⟩ := render_answers hnamed isTyped_defaults fallbackWorld "main.jsonnet"
  · cases himports.symm.trans hfault
  have hwords : Renderer.arguments .defaults fallbackWorld "main.jsonnet" =
      .ok ["main.jsonnet"] := rfl
  cases hwords.symm.trans harguments
  cases hrun.symm.trans hrender
  exact ⟨ran, hcommands.symm, hanswers⟩

def untypedConfig : Config := Config.defaults.set Config.libraryPaths (.int 5)

def belowLongName (rest : Text) : Text := .char '/' :: (List.replicate 256 (.char 'a') ++ rest)

theorem not_render_ok :
    (ofConfig untypedConfig Session.sampleWorld).1.render untypedConfig
        (ofConfig untypedConfig Session.sampleWorld).2 "main.jsonnet" =
      (.error (.setting (.notIterable "int")), Session.sampleWorld) ∧
    (ofConfig .defaults Session.sampleWorld).1.render .defaults
        (ofConfig .defaults Session.sampleWorld).2 (belowLongName "/components/main.jsonnet") =
      (.error (.file (.system .nameTooLong (belowLongName "/app.yaml"))), Session.sampleWorld) ∧
    ¬ ∀ (c : Config) (w : World) (file : Text), ∃ rendering w',
      (ofConfig c w).1.render c (ofConfig c w).2 file = (.ok rendering, w') := by
  have hkind : (ofConfig untypedConfig Session.sampleWorld).1.render untypedConfig
      (ofConfig untypedConfig Session.sampleWorld).2 "main.jsonnet" =
    (.error (.setting (.notIterable "int")), Session.sampleWorld) := rfl
  have hlong : Ksonnet.imports Session.sampleWorld.files Session.sampleWorld.directory
      (belowLongName "/components/main.jsonnet") =
    .error (.system .nameTooLong (belowLongName "/app.yaml")) := by decide +kernel
  refine ⟨hkind, render_of_fault isTyped_defaults _ hlong, fun h => ?_⟩
  obtain ⟨rendering, w', hrender⟩ := h untypedConfig Session.sampleWorld "main.jsonnet"
  cases hkind.symm.trans hrender

end Renderer

end JsonnetPreview
