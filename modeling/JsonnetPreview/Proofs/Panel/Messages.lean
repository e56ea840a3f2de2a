import JsonnetPreview.Proofs.Panel.Console
import JsonnetPreview.Proofs.Text.Editor

namespace JsonnetPreview

open Session

namespace Console

def pathAfter (path : Text) : List Instruction → Text
  | [] => path
  | .select path :: rest => pathAfter path rest
  | _ :: rest => pathAfter path rest

theorem pathAfter_setFormat (path name : Text) :
    pathAfter path (Request.setFormat name).instructions = path := by
  rw [Request.instructions]
  split <;> rfl

/-- What holds at all times of the documents, of what has still to be done, and of a format that
has never been given. -/
structure Sound (x : Console) : Prop where
  path : x.screen.documents[x.screen.active]? =
    some (pathAfter x.screen.session.state.path x.todo)
  closes : Closes x.todo
  format : x.screen.session.state.format = .null → x.screen.bar.format = []

/-- The panes are up to date, or there is something still to come that brings them up to date. -/
structure Invariant (x : Console) : Prop extends Sound x where
  fresh : .refresh ∈ x.todo ∨ .told ∈ x.messages ∨ x.screen.IsUpToDate

section Does

variable {s t : Session} {i : Instruction} {ms : List Moment} {next : List Instruction}
  (h : s.Does i ms t next)

include h

theorem pathAfter_does (rest : List Instruction) :
    pathAfter t.state.path (next ++ rest) = pathAfter s.state.path (i :: rest) := by
  cases h with
  | refresh => exact congrArg (pathAfter · rest) s.refresh_path
  | replay name p => exact congrArg (pathAfter · rest) ((s.withFormat name).applyPayload_path p)
  | follow =>
      obtain ⟨w, hw⟩ := followActive_eq s
      rw [hw]
      rfl
  | watch =>
      obtain ⟨w, hw⟩ := follow_eq s
      rw [hw]
      rfl
  | select | format | configure | present | unwatch => rfl

theorem format_eq_null_of_does (ht : t.state.format = .null) : s.state.format = .null := by
  cases h with
  | refresh => exact (congrArg Settings.format s.refresh_settings).symm.trans ht
  | replay name p =>
      rw [applyPayload_format] at ht
      cases ht
  | format name => cases ht
  | follow =>
      obtain ⟨w, hw⟩ := followActive_eq s
      rwa [hw] at ht
  | watch =>
      obtain ⟨w, hw⟩ := follow_eq s
      rwa [hw] at ht
  | select | configure | present | unwatch => exact ht

theorem directory_does : t.world.directory = s.world.directory := by
  cases h with
  | refresh => exact s.refresh_directory
  | replay name p =>
      exact congrArg (·.scene.2) ((s.withFormat name).applyPayload_surroundings p)
  | follow =>
      obtain ⟨w, hw⟩ := followActive_eq s
      rw [hw]
  | watch =>
      obtain ⟨w, hw⟩ := follow_eq s
      rw [hw]
  | select | format | configure | present | unwatch => rfl

end Does

theorem told_mem_tidings {ms : List Moment} (h : .cycle ∈ ms) : .told ∈ tidings ms :=
  List.mem_filterMap.2 ⟨.cycle, h, rfl⟩

section Steps

variable {x y : Console}

theorem Sound.serve (hx : Sound x) (n : Nat) :
    Invariant { x.goOn x.screen.session.refresh x.todo [.cycle] with waiting := n } where
  path := by
    show _ = some (pathAfter x.screen.session.refresh.state.path x.todo)
    rw [refresh_path]
    exact hx.path
  closes := hx.closes
  format := fun hnull => hx.format (format_eq_null_of_does .refresh hnull)
  fresh := .inr (.inl (List.mem_append_right _ List.mem_cons_self))

theorem Sound.withScreen (hx : Sound x) {y : Screen} (hsession : y.session = x.screen.session)
    (hdocuments : y.documents = x.screen.documents) (hactive : y.active = x.screen.active)
    (hformat : x.screen.session.state.format = .null → y.bar.format = [])
    (messages : List Message) : Sound { x with screen := y, messages } where
  path := by
    show y.documents[y.active]? = some (pathAfter y.session.state.path x.todo)
    rw [hsession, hdocuments, hactive]
    exact hx.path
  closes := hx.closes
  format := fun hnull => hformat (hsession ▸ hnull)

namespace Invariant

variable (hx : Invariant x)

include hx

theorem proceed {i rest ms t next} (htodo : x.todo = i :: rest)
    (h : x.screen.session.Does i ms t next) : Invariant (x.goOn t (next ++ rest) ms) := by
  obtain ⟨hneeds, hrest⟩ : Closes (i :: rest) := htodo ▸ hx.closes
  refine ⟨⟨?_, h.closes hrest, ?_⟩, ?_⟩
  · rw [goOn, pathAfter_does h, ← htodo]
    exact hx.path
  · exact fun hnull => hx.format (format_eq_null_of_does h hnull)
  · have heffect := h.effect
    cases heffect with
    | still hstate hcache hupdates =>
        have hfresh := hx.fresh
        rw [htodo, List.mem_cons, or_iff_right h.ne_refresh.symm] at hfresh
        refine hfresh.imp (List.mem_append_right _) (Or.imp (List.mem_append_left _) ?_)
        exact fun hscreen => hscreen.withSession hstate (directory_does h)
    | set setting =>
        left
        rcases h.refresh_mem with hi | hnext
        · exact List.mem_append_right _ (hneeds hi)
        · exact List.mem_append_left _ hnext
    | cycle ms =>
        right
        left
        exact List.mem_append_right _
          (told_mem_tidings (List.mem_append_right _ List.mem_cons_self))

theorem ask {r : Request} {y : Screen} (hidle : x.todo = []) (h : x.screen.Asks r y) :
    Invariant { x with screen := y, todo := r.instructions } := by
  have hpath := hx.path
  rw [hidle] at hpath
  cases h with
  | refresh =>
      exact ⟨⟨hpath, Request.closes .refresh, hx.format⟩, .inl List.mem_cons_self⟩
  | otherFormat =>
      have hfresh := hx.fresh
      rw [hidle] at hfresh
      refine ⟨⟨?_, Request.closes (.setFormat _), hx.format⟩,
        .inr (hfresh.resolve_left List.not_mem_nil)⟩
      rw [pathAfter_setFormat]
      exact hpath
  | nextDocument path hmany hnext =>
      refine ⟨⟨hnext, Request.closes (.switchTo path), hx.format⟩, .inl ?_⟩
      exact List.mem_cons_of_mem _ List.mem_cons_self

theorem handle {before after : List Message} {y : Screen}
    (h : x.screen.setPanes = .ok y) :
    Invariant { x with screen := y, messages := before ++ after } := by
  obtain ⟨hsession, hdocuments, hactive⟩ := Screen.setPanes_keeps h
  have hy : y.IsUpToDate := Screen.isUpToDate_of_setPanes h hx.format
  refine ⟨hx.withScreen hsession hdocuments hactive ?_ _, .inr (.inr hy)⟩
  intro hnull
  rw [hy.bar, Screen.barOf, hsession, hnull]
  rfl

theorem step (h : x.Step y) : Invariant y := by
  cases h with
  | ask hidle h => exact hx.ask hidle h
  | proceed htodo h => exact hx.proceed htodo h
  | event h =>
      refine ⟨⟨hx.path, hx.closes, hx.format⟩, ?_⟩
      exact hx.fresh.imp_right (Or.imp_right fun hscreen => hscreen.withSession rfl rfl)
  | serve hwaiting => exact hx.serve _
  | environment files programs outcomes =>
      refine ⟨⟨hx.path, hx.closes, hx.format⟩, ?_⟩
      exact hx.fresh.imp_right (Or.imp_right fun hscreen => hscreen.withSession rfl rfl)
  | handle hidle hmessages h => exact hx.handle h
  | @overlap before after n y hidle hmessages hwaiting hsession hdocuments hactive hformat =>
      have hsound := hx.toSound.withScreen hsession hdocuments hactive (fun hnull => by
        rw [hformat, hnull]
        exact hx.format hnull) (before ++ after)
      exact hsound.serve _
  | @configure before after externals hidle hmessages =>
      have hpath := hx.path
      rw [hidle] at hpath
      refine ⟨⟨hpath, Request.closes (.setVariables externals), hx.format⟩, .inl ?_⟩
      exact List.mem_cons_of_mem _ (List.mem_cons_of_mem _ List.mem_cons_self)
  | submit =>
      refine ⟨⟨hx.path, hx.closes, hx.format⟩, ?_⟩
      exact hx.fresh.imp_right (Or.imp (List.mem_append_left _) (·.withPopup _))
  | popup hidle p =>
      refine ⟨⟨hx.path, hx.closes, hx.format⟩, ?_⟩
      exact hx.fresh.imp_right (Or.imp_right (·.withPopup p))
  | nextDiagnostic =>
      refine ⟨⟨hx.path, hx.closes, hx.format⟩, ?_⟩
      exact hx.fresh.imp_right (Or.imp_right (·.withPeek (PeekPanel.turns_next _)))
  | previousDiagnostic =>
      refine ⟨⟨hx.path, hx.closes, hx.format⟩, ?_⟩
      exact hx.fresh.imp_right (Or.imp_right (·.withPeek (PeekPanel.turns_previous _)))

end Invariant

end Steps

def opened (documents : List Text) (s : Session) : Console where
  screen := { session := s, documents }
  todo := Request.start.instructions

theorem invariant_of_run {path : Text} {documents : List Text} {config : Config} {w : World}
    {s : Session} (hs : create path config w = .ok s) {x : Console}
    (hrun : Run (opened (path :: documents) s) x) : Invariant x := by
  induction hrun with
  | refl =>
      obtain ⟨externals, -, rfl⟩ := create_eq hs
      exact ⟨⟨rfl, Request.closes .start, fun _ => rfl⟩, .inl List.mem_cons_self⟩
  | tail _ hstep ih => exact ih.step hstep

theorem Invariant.settled {x : Console} (hx : Invariant x) (htodo : x.todo = [])
    (htold : .told ∉ x.messages) :
    x.screen.IsUpToDate ∧
      x.screen.documents[x.screen.active]? = some x.screen.session.state.path := by
  obtain ⟨⟨hpath, -, -⟩, hfresh⟩ := hx
  rw [htodo] at hpath hfresh
  exact ⟨(hfresh.resolve_left List.not_mem_nil).resolve_left htold, hpath⟩

/-- Whatever is asked for by keys, submitted and saved, and in whatever order it is done and
messages are handled: when no action is in progress and no cycle's message is left, all panes show
the state of the session, which is over the active document. A report is shown as an editor gives it
back. -/
theorem isUpToDate_of_run {path : Text} {documents : List Text} {config : Config} {w : World}
    {s : Session} (hs : create path config w = .ok s) {x : Console}
    (hrun : Run (opened (path :: documents) s) x) (htodo : x.todo = [])
    (htold : .told ∉ x.messages) :
    x.screen.IsUpToDate ∧
      x.screen.documents[x.screen.active]? = some x.screen.session.state.path ∧
      (∀ name, x.screen.session.state.format = .str name → x.screen.bar.format = name) ∧
      (x.screen.showsReport = true → .char '\r' ∉ x.screen.session.state.preview →
        (x.screen.report = x.screen.session.state.preview ↔
          Text.HasOnlyNewlines x.screen.session.state.preview)) := by
  obtain ⟨hscreen, hpath⟩ := (invariant_of_run hs hrun).settled htodo htold
  refine ⟨hscreen, hpath, ?_, ?_⟩
  · intro name hname
    rw [hscreen.bar, Screen.barOf, hname, Screen.formatOf_str]
    rfl
  · intro hreport hreturn
    rw [hscreen.report hreport]
    exact Text.throughEditor_eq_self_iff hreturn

theorem run_opened {documents : List Text} {s : Session}
    (h : (Screen.start documents s).2 = none) :
    Run (opened documents s) ⟨(Screen.start documents s).1, [], 0, []⟩ :=
  run_start (Prod.ext rfl h)

theorem isUpToDate_of_run_started :
    Run (opened ["main.jsonnet"] sampleSession)
        ⟨(Screen.start ["main.jsonnet"] sampleSession).1, [], 0, []⟩ ∧
      (Screen.start ["main.jsonnet"] sampleSession).1.IsUpToDate := by
  have hstart : (Screen.start ["main.jsonnet"] sampleSession).2 = none := by decide +kernel
  have hrun := run_opened hstart
  exact ⟨hrun, (isUpToDate_of_run create_sample hrun rfl List.not_mem_nil).1⟩

def failingWorld (errors : Text) : World :=
  { sampleWorld with outcomes := fun _ => .exited 1 "" errors }

def failingSession (errors : Text) : Session := { sampleSession with world := failingWorld errors }

theorem create_failing (errors : Text) :
    create "main.jsonnet" .defaults (failingWorld errors) = .ok (failingSession errors) := rfl

theorem report_ne_preview_separated :
    create "main.jsonnet" .defaults (failingWorld "boom\u2028again") =
        .ok (failingSession "boom\u2028again") ∧
      ∃ x, Run (opened ["main.jsonnet"] (failingSession "boom\u2028again")) x ∧ x.todo = [] ∧
        x.messages = [] ∧ x.screen.showsReport = true ∧
        x.screen.report ≠ x.screen.session.state.preview := by
  have hstart : (Screen.start ["main.jsonnet"] (failingSession "boom\u2028again")).2 = none := by
    decide +kernel
  refine ⟨create_failing _, _, run_opened hstart, rfl, rfl, ?_, ?_⟩
  · decide +kernel
  · decide +kernel

end Console

namespace Screen

/-- What comes of a start and of keys and events, as long as nothing goes wrong. -/
inductive Reached (documents : List Text) (s : Session) : Screen → Prop
  | start {y} (h : Screen.start documents s = (y, none)) : Reached documents s y
  | press {x y} (k : Key) (hx : Reached documents s x) (h : x.press k = (y, none)) :
      Reached documents s y
  | event {x y} (now : Number) (e : FileEvent) (hx : Reached documents s x)
      (h : x.handleEvent now e = (y, none)) : Reached documents s y
  | environment {x} (files programs outcomes) (hx : Reached documents s x) :
      Reached documents s { x with session := x.session.inEnvironment files programs outcomes }

theorem run_of_reached {documents : List Text} {s : Session} {x : Screen}
    (h : Reached documents s x) : Console.Run (Console.opened documents s) ⟨x, [], 0, []⟩ := by
  induction h with
  | start h => exact Console.run_start h
  | press k _ h ih => exact ih.trans (Console.run_press h)
  | event now e _ h ih => exact ih.trans (Console.run_handleEvent h)
  | environment files programs outcomes _ ih =>
      exact ih.tail (.environment files programs outcomes)

theorem isUpToDate_of_reached {path : Text} {documents : List Text} {config : Config} {w : World}
    {s : Session} (hs : create path config w = .ok s) {x : Screen}
    (h : Reached (path :: documents) s x) :
    x.IsUpToDate ∧ x.documents[x.active]? = some x.session.state.path :=
  (Console.invariant_of_run hs (run_of_reached h)).settled rfl List.not_mem_nil

end Screen

end JsonnetPreview
