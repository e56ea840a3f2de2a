import JsonnetPreview.Proofs.Session.Replay
import JsonnetPreview.Proofs.Session.Settings

namespace JsonnetPreview

namespace Session

/-- What is done without a break: what happens under the lock, or one assignment without it. -/
inductive Instruction where
  | refresh
  | select (path : Text)
  | format (name : Text)
  | configure (externals : VariableTable)
  | present (externals : VariableTable)
  | follow
  | watch
  | unwatch

inductive Setting where
  | path
  | format
  | configuredVariables
  | presentedVariables
  deriving DecidableEq, Repr

inductive Moment where
  | set (setting : Setting)
  | arrival
  | cycle
  deriving DecidableEq, Repr

def presentVariables (s : Session) (externals : VariableTable) : Session :=
  { s with state := { s.state with externals } }

def followActive (s : Session) : Session :=
  if s.watcher.active.isSome then s.follow.1 else s

/-- What an instruction does, in which moments, and what has to be done next because of it. -/
inductive Does (s : Session) : Instruction → List Moment → Session → List Instruction → Prop
  | refresh : Does s .refresh [.cycle] s.refresh []
  | select (path) : Does s (.select path) [.set .path] (s.select path) []
  | replay (name p) (hname : (OutputFormat.ofName? name).isSome)
      (hcache : s.cache.get? (some s.state.path) = some p) :
      Does s (.format name) [.set .format, .cycle] ((s.withFormat name).applyPayload p) []
  | format (name) (hname : (OutputFormat.ofName? name).isSome)
      (hcache : s.cache.get? (some s.state.path) = none) :
      Does s (.format name) [.set .format] (s.withFormat name) [.refresh]
  | configure (externals) :
      Does s (.configure externals) [.set .configuredVariables] (s.overrideVariables externals) []
  | present (externals) :
      Does s (.present externals) [.set .presentedVariables] (s.presentVariables externals) []
  | follow : Does s .follow [] s.followActive []
  | watch : Does s .watch [] s.follow.1 []
  | unwatch : Does s .unwatch [] s.stop []

/-- What the panes can ask for. -/
inductive Request where
  | refresh
  | switchTo (path : Text)
  | setFormat (name : Text)
  | setVariables (externals : VariableTable)
  | start
  | stop

namespace Request

def action : Request → Action
  | refresh => .refresh
  | switchTo path => .switchTo path
  | setFormat name => .setFormat name
  | setVariables externals => .setVariables externals
  | start => .start
  | stop => .stop

def instructions : Request → List Instruction
  | refresh => [.refresh]
  | switchTo path => [.select path, .refresh, .follow]
  | setFormat name => if (OutputFormat.ofName? name).isSome then [.format name] else []
  | setVariables externals => [.configure externals, .present externals, .refresh]
  | start => [.refresh, .watch]
  | stop => [.unwatch]

end Request

/-- A session, what the request in progress has still to do, and how many callbacks have come that
have not got the lock yet. -/
structure Shared where
  session : Session
  todo : List Instruction := []
  waiting : Nat := 0

namespace Shared

def Idle (x : Shared) : Prop := x.todo = [] ∧ x.waiting = 0

inductive Step : Shared → List Moment → Shared → Prop
  | begin (s w) (r : Request) : Step ⟨s, [], w⟩ [] ⟨s, r.instructions, w⟩
  | proceed {s i ms t next} (rest w) (h : Does s i ms t next) :
      Step ⟨s, i :: rest, w⟩ ms ⟨t, next ++ rest, w⟩
  | arrive (s todo w) : Step ⟨s, todo, w⟩ [.arrival] ⟨s, todo, w + 1⟩
  | serve (s todo w) : Step ⟨s, todo, w + 1⟩ [.cycle] ⟨s.refresh, todo, w⟩
  | environment (s todo w files programs outcomes) :
      Step ⟨s, todo, w⟩ [] ⟨s.inEnvironment files programs outcomes, todo, w⟩

inductive Run (x : Shared) : Shared → List Moment → Prop
  | nil : Run x x []
  | step {y z h ms} (hrun : Run x y h) (hstep : Step y ms z) : Run x z (h ++ ms)

theorem Run.proceed {x : Shared} {s i rest w h ms t next} (hrun : Run x ⟨s, i :: rest, w⟩ h)
    (hdoes : Does s i ms t next) : Run x ⟨t, next ++ rest, w⟩ (h ++ ms) :=
  .step hrun (.proceed rest w hdoes)

theorem run_setFormat (s : Session) (name : Text) (w : Nat) :
    ∃ h, Run ⟨s, (Request.setFormat name).instructions, w⟩ ⟨(s.setFormat name).1, [], w⟩ h := by
  by_cases hname : (OutputFormat.ofName? name).isSome
  · rw [Request.instructions, if_pos hname]
    cases hcache : s.cache.get? (some s.state.path) with
    | some p =>
        rw [setFormat_of_get? hname hcache]
        exact ⟨_, Run.nil.proceed (.replay name p hname hcache)⟩
    | none =>
        rw [setFormat_of_get?_none hname hcache]
        exact ⟨_, (Run.nil.proceed (.format name hname hcache)).proceed .refresh⟩
  · rw [Request.instructions, if_neg hname,
      setFormat_of_none (Option.not_isSome_iff_eq_none.1 hname)]
    exact ⟨_, .nil⟩

theorem perform_switchTo (s : Session) (path : Text) :
    (s.switchTo path).1 = ((s.select path).refresh).followActive := by
  rw [switchTo, followActive]
  split <;> rfl

theorem run_alone (s : Session) (r : Request) (w : Nat) :
    ∃ h, Run ⟨s, r.instructions, w⟩ ⟨s.perform r.action, [], w⟩ h := by
  cases r with
  | refresh => exact ⟨_, Run.nil.proceed .refresh⟩
  | switchTo path =>
      rw [Request.action, perform, perform_switchTo]
      exact ⟨_, ((Run.nil.proceed (.select path)).proceed .refresh).proceed .follow⟩
  | setFormat name => exact run_setFormat s name w
  | setVariables externals =>
      exact ⟨_,
        ((Run.nil.proceed (.configure externals)).proceed (.present externals)).proceed .refresh⟩
  | start => exact ⟨_, (Run.nil.proceed .refresh).proceed .watch⟩
  | stop => exact ⟨_, Run.nil.proceed .unwatch⟩

end Shared

/-- What was told last is what is there. -/
def LastTold (s : Session) : Prop :=
  ∀ u ∈ s.updates.getLast?, u.state = s.state ∧ u.cache = s.cache

def LastShown (s : Session) : Prop := ∀ u ∈ s.updates.getLast?, u.state.shown = s.state.shown

theorem Tells.lastTold {s t : Session} (h : s.Tells t) : t.LastTold := by
  obtain ⟨fault, hupdates⟩ := h
  intro u hu
  rw [hupdates, List.getLast?_concat, Option.mem_some_iff] at hu
  subst hu
  exact ⟨rfl, rfl⟩

theorem LastTold.lastShown {s : Session} (h : s.LastTold) : s.LastShown := fun u hu =>
  congrArg DocumentState.shown (h u hu).1

theorem follow_eq (s : Session) : ∃ watcher, s.follow.1 = { s with watcher } := by
  unfold follow watch
  cases s.watcher.watch s.world.files s.world.directory s.state.path with
  | error fault => exact ⟨s.watcher, rfl⟩
  | ok watcher => exact ⟨watcher, rfl⟩

theorem followActive_eq (s : Session) : ∃ watcher, s.followActive = { s with watcher } := by
  unfold followActive
  split
  next => exact follow_eq s
  next => exact ⟨s.watcher, rfl⟩

/-- What a step can be: nothing that is shown or kept changes, one setting is set, or a cycle ends
in it. -/
inductive Effect (s t : Session) : List Moment → Prop
  | still (hstate : t.state = s.state) (hcache : t.cache = s.cache)
      (hupdates : t.updates = s.updates) : Effect s t []
  | set (setting) (hshown : t.state.shown = s.state.shown) (hupdates : t.updates = s.updates) :
      Effect s t [.set setting]
  | cycle (ms) (hms : Moment.cycle ∉ ms) (h : s.Tells t) : Effect s t (ms ++ [.cycle])

theorem Does.effect {s i ms t next} (h : Does s i ms t next) : Effect s t ms := by
  cases h with
  | refresh => exact .cycle [] nofun s.tells_refresh
  | replay name p =>
      exact .cycle [.set .format] (by simp) ((s.withFormat name).tells_applyPayload p)
  | select | format | configure | present => exact .set _ rfl rfl
  | follow =>
      obtain ⟨watcher, h⟩ := followActive_eq s
      rw [h]
      exact .still rfl rfl rfl
  | watch =>
      obtain ⟨watcher, h⟩ := follow_eq s
      rw [h]
      exact .still rfl rfl rfl
  | unwatch => exact .still rfl rfl rfl

theorem Does.settled {s i ms t next} (h : Does s i ms t next) (hs : s.Settled) : t.Settled := by
  cases h with
  | refresh => exact settled_move (.refresh s.refresh_cases) hs
  | select path => exact settled_move (.select path) hs
  | replay name p hname hcache => exact settled_move (.replay name p hname hcache) hs
  | format name hname hcache => exact settled_move (.format name hname hcache) hs
  | follow =>
      obtain ⟨watcher, h⟩ := followActive_eq s
      exact h ▸ settled_move (.watcher watcher) hs
  | watch =>
      obtain ⟨watcher, h⟩ := follow_eq s
      exact h ▸ settled_move (.watcher watcher) hs
  | configure | present | unwatch => exact hs

theorem Does.settings {s i ms t next} (h : Does s i ms t next)
    (hms : ∀ setting, .set setting ∉ ms) : t.settings = s.settings := by
  cases h with
  | refresh => exact s.refresh_settings
  | follow =>
      obtain ⟨watcher, h⟩ := followActive_eq s
      rw [h]
      rfl
  | watch =>
      obtain ⟨watcher, h⟩ := follow_eq s
      rw [h]
      rfl
  | unwatch => rfl
  | select | replay | format | configure | present => exact absurd (List.mem_cons_self ..) (hms _)

def Instruction.NeedsRefresh : Instruction → Prop
  | select _ | configure _ | present _ => True
  | _ => False

/-- A refresh is done behind everything that needs one. -/
def Closes : List Instruction → Prop
  | [] => True
  | i :: rest => (i.NeedsRefresh → .refresh ∈ rest) ∧ Closes rest

theorem Request.closes (r : Request) : Closes r.instructions := by
  cases r with
  | setFormat name =>
      rw [instructions]
      split
      next => exact ⟨False.elim, trivial⟩
      next => trivial
  | refresh | switchTo | setVariables | start | stop =>
      simp [instructions, Closes, Instruction.NeedsRefresh]

theorem Does.closes {s i ms t next} (h : Does s i ms t next) {rest : List Instruction}
    (hrest : Closes rest) : Closes (next ++ rest) := by
  cases h with
  | format => exact ⟨False.elim, hrest⟩
  | refresh | select | replay | configure | present | follow | watch | unwatch => exact hrest

theorem Does.ne_refresh {s i t next} (h : Does s i [] t next) : i ≠ .refresh := by
  rintro rfl
  cases h

theorem Does.refresh_mem {s i setting t next} (h : Does s i [.set setting] t next) :
    i.NeedsRefresh ∨ .refresh ∈ next := by
  cases h with
  | select | configure | present => exact .inl trivial
  | format => exact .inr (List.mem_singleton_self _)

namespace Shared

/-- Everything else has been followed by a cycle. -/
def Answered (h : List Moment) : Prop :=
  ∀ before m after, h = before ++ m :: after → m ≠ .cycle → .cycle ∈ after

theorem answered_nil : Answered [] := by
  intro before m after h
  simp at h

theorem answered_concat (h : List Moment) : Answered (h ++ [.cycle]) := by
  intro before m after happ hm
  rcases List.eq_nil_or_concat after with rfl | ⟨init, last, rfl⟩
  · exact absurd (List.cons.inj (List.append_inj_right' happ rfl)).1.symm hm
  · rw [List.concat_eq_append, ← List.cons_append, ← List.append_assoc] at happ
    have hlast := List.append_inj_right' happ rfl
    rw [List.concat_eq_append, ← hlast]
    exact List.mem_append_right _ (List.mem_singleton_self _)

theorem Step.settings {x y ms} (h : Step x ms y) (hms : ∀ setting, .set setting ∉ ms) :
    y.session.settings = x.session.settings := by
  cases h with
  | proceed rest w hdoes => exact hdoes.settings hms
  | serve s => exact s.refresh_settings
  | begin | arrive | environment => rfl

theorem Run.settings {x y h} (hrun : Run x y h) (hset : ∀ setting, .set setting ∉ h) :
    y.session.settings = x.session.settings := by
  induction hrun with
  | nil => rfl
  | step hrun hstep ih =>
      simp only [List.mem_append, not_or, forall_and] at hset
      rw [hstep.settings hset.2, ih hset.1]

theorem Step.still {x y ms} (h : Step x ms y) (hms : ms = []) :
    y.session.state = x.session.state ∧ y.session.cache = x.session.cache := by
  cases h with
  | begin | environment => exact ⟨rfl, rfl⟩
  | arrive | serve => cases hms
  | proceed rest w hdoes =>
      cases hdoes.effect with
      | still hstate hcache => exact ⟨hstate, hcache⟩
      | set => cases hms
      | cycle => simp at hms

theorem Run.still {x y h} (hrun : Run x y h) (hh : h = []) :
    y.session.state = x.session.state ∧ y.session.cache = x.session.cache := by
  induction hrun with
  | nil => exact ⟨rfl, rfl⟩
  | step hrun hstep ih =>
      obtain ⟨hbefore, hms⟩ := List.append_eq_nil_iff.1 hh
      obtain ⟨hstate, hcache⟩ := ih hbefore
      obtain ⟨hstate', hcache'⟩ := hstep.still hms
      exact ⟨hstate'.trans hstate, hcache'.trans hcache⟩

/-- What holds at all times of what is kept, what is shown, and what has still to be done. -/
structure Invariant (x : Shared) (h : List Moment) : Prop where
  settled : x.session.Settled
  length_updates : x.session.updates.length = h.count .cycle
  lastShown : x.session.LastShown
  closes : Closes x.todo
  answered : .refresh ∈ x.todo ∨ x.waiting ≠ 0 ∨ Answered h
  lastTold : .refresh ∈ x.todo ∨ x.session.LastTold

theorem Invariant.told {x y : Shared} {h : List Moment} (hx : Invariant x h) (ms : List Moment)
    (htells : x.session.Tells y.session) (hms : Moment.cycle ∉ ms)
    (hsettled : y.session.Settled) (hcloses : Closes y.todo) :
    Invariant y (h ++ (ms ++ [.cycle])) where
  settled := hsettled
  length_updates := by
    rw [htells.length_updates, hx.length_updates, List.count_append, List.count_append,
      List.count_eq_zero_of_not_mem hms, List.count_singleton_self, Nat.zero_add]
  lastShown := htells.lastTold.lastShown
  closes := hcloses
  answered := by
    rw [← List.append_assoc]
    exact .inr (.inr (answered_concat _))
  lastTold := .inr htells.lastTold

theorem Invariant.proceed {s i rest w h ms t next} (hx : Invariant ⟨s, i :: rest, w⟩ h)
    (hdoes : Does s i ms t next) : Invariant ⟨t, next ++ rest, w⟩ (h ++ ms) := by
  obtain ⟨hneeds, hrest⟩ := hx.closes
  have hsettled := hdoes.settled hx.settled
  have hcloses := hdoes.closes hrest
  have heffect := hdoes.effect
  cases heffect with
  | still hstate hcache hupdates =>
      have hmem : .refresh ∈ i :: rest → .refresh ∈ next ++ rest := fun hi =>
        List.mem_append_right _ ((List.mem_cons.1 hi).resolve_left hdoes.ne_refresh.symm)
      refine ⟨hsettled, ?_, ?_, hcloses, ?_, ?_⟩
      · rw [hupdates, List.append_nil]
        exact hx.length_updates
      · rw [LastShown, hupdates, hstate]
        exact hx.lastShown
      · rw [List.append_nil]
        exact hx.answered.imp_left hmem
      · rw [LastTold, hupdates, hstate, hcache]
        exact hx.lastTold.imp_left hmem
  | set setting hshown hupdates =>
      -- Whatever sets something leads to a refresh, or has one behind it already.
      have hmem : .refresh ∈ next ++ rest := by
        rcases hdoes.refresh_mem with hi | hnext
        · exact List.mem_append_right _ (hneeds hi)
        · exact List.mem_append_left _ hnext
      refine ⟨hsettled, ?_, ?_, hcloses, .inl hmem, .inl hmem⟩
      · rw [hupdates, List.count_append, hx.length_updates]
        rfl
      · rw [LastShown, hupdates, hshown]
        exact hx.lastShown
  | cycle ms hms htells => exact hx.told ms htells hms hsettled hcloses

theorem Invariant.step {x y ms h} (hx : Invariant x h) (hstep : Step x ms y) :
    Invariant y (h ++ ms) := by
  cases hstep with
  | begin s w r =>
      rw [List.append_nil]
      exact { hx with
        closes := r.closes
        answered := .inr (hx.answered.resolve_left nofun)
        lastTold := .inr (hx.lastTold.resolve_left nofun) }
  | proceed rest w hdoes => exact hx.proceed hdoes
  | arrive s todo w =>
      exact { hx with
        length_updates := by
          rw [List.count_append]
          exact hx.length_updates
        answered := .inr (.inl (Nat.succ_ne_zero w)) }
  | serve s todo w =>
      exact hx.told [] s.tells_refresh nofun
        (settled_move (.refresh s.refresh_cases) hx.settled) hx.closes
  | environment =>
      rw [List.append_nil]
      exact { hx with }

theorem invariant_of_run {path : Text} {config : Config} {w : World} {s : Session}
    (hs : create path config w = .ok s) {x : Shared} {h : List Moment}
    (hrun : Run ⟨s, [], 0⟩ x h) : Invariant x h := by
  induction hrun with
  | nil =>
      obtain ⟨hcache, hupdates⟩ := create_fresh hs
      have hlast : s.updates.getLast? = none := by rw [hupdates]; rfl
      refine ⟨?_, ?_, ?_, trivial, .inr (.inr answered_nil), .inr ?_⟩
      · intro source p hp
        rw [hcache] at hp
        cases hp
      · rw [hupdates]
        rfl
      · rw [LastShown, hlast]
        nofun
      · rw [LastTold, hlast]
        nofun
  | step hrun hstep ih => exact ih.step hstep

end Shared

end Session

end JsonnetPreview
