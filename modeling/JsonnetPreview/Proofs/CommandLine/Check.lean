import JsonnetPreview.CommandLine.Run
import JsonnetPreview.Proofs.Report.Insertion
import JsonnetPreview.Proofs.Session.Reachable

namespace JsonnetPreview

namespace Report

open DiagnosticSet

/-- What the lines of a report locate, in their order. -/
def sightings (report : Text) : List (Text × Diagnostic) :=
  match classify report with
  | .static message =>
    match staticFinding message with
    | .ok (.located file d) => [(file, d)]
    | _ => []
  | .runtime message trace => trace.filterMap (located? message)
  | .unrecognized _ => []

theorem found_eq_grouped {report : Text} {e : Extraction} (h : extract report = .ok e) :
    e.found = grouped (sightings report) := by
  rw [← addAll_nil, sightings]
  rw [extract] at h
  cases hreport : classify report with
  | static message =>
      simp only [hreport, collect] at h ⊢
      cases hfinding : staticFinding message with
      | error cause => simp [hfinding] at h
      | ok finding =>
          simp only [hfinding, Except.ok.injEq] at h
          subst h
          cases finding <;> rfl
  | runtime message trace =>
      simp only [hreport] at h
      exact found_collect h
  | unrecognized line =>
      simp only [hreport, Except.ok.injEq] at h
      exact h ▸ rfl

end Report

namespace CommandLine

open Report

/-- One file of a check: its payload, what is printed of it and what is complained about. -/
structure Round where
  file : Text
  payload : Payload
  shown : Option Text
  complaints : List Text

/-- What is printed of a payload, or what is complained about. -/
inductive Round.Accounted [Stack] (format : Text) : Round → Prop
  | shown {file text shown : Text} (h : (Payload.rendered text).reformat format = .ok shown) :
      Accounted format ⟨file, .rendered text, some shown, []⟩
  | malformed {file text : Text} {m : Json.Malformed}
      (h : (Payload.rendered text).reformat format = .error (.malformed m)) :
      Accounted format ⟨file, .rendered text, none,
        ["Error: " ++ file ++ ": " ++ (ReformatError.malformed m).message]⟩
  | located {file report : Text} {e : Extraction} (h : extract report = .ok e)
      (hfound : e.found ≠ []) (horder : e.found = DiagnosticSet.grouped (sightings report)) :
      Accounted format ⟨file, .failure report, none,
        e.found.flatMap fun (file, ds) => ds.map (Diagnostic.line file)⟩
  | unlocated {file report : Text} {e : Extraction} (h : extract report = .ok e)
      (hfound : e.found = []) : Accounted format ⟨file, .failure report, none, [report]⟩

/-- The files are rendered one after the other. Between two of them nothing is done but to notice
something. -/
inductive Renders (r : Renderer) (c : Config) : World → List Round → World → Prop
  | nil {w : World} : Renders r c w [] w
  | cons {w w₁ w' : World} {x : Round} {rest : List Round} {rendering : Rendering}
      (notices : List Notice) (hrender : r.render c w x.file = (.ok rendering, w₁))
      (hpayload : x.payload = .ofOutcome rendering.output rendering.report)
      (hrest : Renders r c (w₁.noticeAll notices) rest w') : Renders r c w (x :: rest) w'

namespace Check

variable {r : Renderer} {c : Config} {s s' : Check} {file : Text}

def after (s : Check) (x : Round) (world : World) : Check where
  output := s.output ++ asLines x.shown.toList
  errors := s.errors ++ asLines x.complaints
  failed := s.failed || x.shown.isNone
  world

theorem foldl_complain (s : Check) (ls : List Text) :
    ls.foldl complain s = { s with errors := s.errors ++ asLines ls } := by
  induction ls generalizing s with
  | nil => simp [asLines]
  | cons l ls ih => simp [ih, complain, asLines]

theorem showFailure_accounts [Stack] {report : Text} (h : s.showFailure report = (s', none))
    (format file : Text) : ∃ x ns, x.file = file ∧ x.payload = .failure report ∧
      x.Accounted format ∧ s' = s.after x (s.world.noticeAll ns) := by
  rw [showFailure] at h
  cases he : extract report with
  | error e => simp [he] at h
  | ok e =>
      simp only [he, complainOf, Prod.mk.injEq, and_true] at h
      split at h
      next hfound =>
        refine ⟨_, e.notices, rfl, rfl, .unlocated he (List.isEmpty_iff.1 hfound), ?_⟩
        simp [← h, after, fail, complain, asLines]
      next hfound =>
        refine ⟨_, e.notices, rfl, rfl, .located he (by simpa using hfound)
          (found_eq_grouped he), ?_⟩
        simp [← h, after, fail, foldl_complain, asLines]

theorem eq_of_print {t : Text} (h : s.print t = (s', none)) :
    s' = { s with output := s.output ++ asLines [t] } := by
  rw [print] at h
  split at h
  next =>
    cases h
    simp [asLines]
  next => simp at h

theorem showRendered_accounts [Stack] {text format : Text}
    (h : s.showRendered file text format = (s', none)) : ∃ x, x.file = file ∧
      x.payload = .rendered text ∧ x.Accounted format ∧ s' = s.after x s.world := by
  rw [showRendered] at h
  split at h
  next shown hshown =>
    refine ⟨_, rfl, rfl, .shown hshown, ?_⟩
    simp [eq_of_print h, after, asLines]
  next m hm =>
    refine ⟨_, rfl, rfl, .malformed hm, ?_⟩
    simp only [Prod.mk.injEq, and_true] at h
    simp [← h, after, fail, complain, asLines]
  next => simp at h

theorem checkFile_accounts [Stack] (h : checkFile r c s file = (s', none)) :
    ∃ x rendering w ns, x.file = file ∧ r.render c s.world file = (.ok rendering, w) ∧
      x.payload = .ofOutcome rendering.output rendering.report ∧ x.Accounted (formatOf c) ∧
        s' = s.after x (w.noticeAll ns) := by
  rw [checkFile] at h
  rcases hrender : r.render c s.world file with ⟨fault | rendering, w⟩
  · simp [hrender] at h
  · simp only [hrender] at h
    cases hpayload : Payload.ofOutcome rendering.output rendering.report with
    | failure report =>
        simp only [hpayload] at h
        obtain ⟨x, ns, hfile, hx, haccounted, hafter⟩ := showFailure_accounts h (formatOf c) file
        exact ⟨x, rendering, w, ns, hfile, rfl, hx.trans hpayload.symm, haccounted, hafter⟩
    | rendered text =>
        simp only [hpayload] at h
        obtain ⟨x, hfile, hx, haccounted, hafter⟩ := showRendered_accounts h
        have hnil : w.noticeAll [] = w := by simp [World.noticeAll]
        exact ⟨x, rendering, w, [], hfile, rfl, hx.trans hpayload.symm, haccounted,
          hnil.symm ▸ hafter⟩

theorem checkAll_accounts [Stack] {files : List Text} (h : checkAll r c s files = (s', none)) :
    ∃ rounds : List Round, rounds.map Round.file = files ∧
      Renders r c s.world rounds s'.world ∧ (∀ x ∈ rounds, x.Accounted (formatOf c)) ∧
      s'.output = s.output ++ asLines (rounds.filterMap Round.shown) ∧
      s'.errors = s.errors ++ asLines (rounds.flatMap Round.complaints) ∧
      s'.failed = (s.failed || rounds.any fun x => x.shown.isNone) := by
  induction files generalizing s with
  | nil =>
      cases h
      exact ⟨[], rfl, .nil, nofun, by simp [asLines], by simp [asLines], by simp⟩
  | cons file files ih =>
      rw [checkAll] at h
      rcases hfile : checkFile r c s file with ⟨m, none | fault⟩
      · simp only [hfile] at h
        obtain ⟨x, rendering, w, ns, rfl, hrender, hpayload, hx, rfl⟩ := checkFile_accounts hfile
        obtain ⟨rounds, rfl, hrenders, hrounds, houtput, herrors, hfailed⟩ := ih h
        refine ⟨x :: rounds, rfl, .cons ns hrender hpayload hrenders,
          List.forall_mem_cons.2 ⟨hx, hrounds⟩, ?_, ?_, ?_⟩
        · cases hshown : x.shown <;> simp [houtput, after, asLines, hshown]
        · simp [herrors, after, asLines]
        · simp [hfailed, after, Bool.or_assoc]
      · simp [hfile] at h

end Check

def Passes [Stack] (format : Text) (p : Payload) : Prop :=
  ∃ text shown, p = .rendered text ∧ p.reformat format = .ok shown

namespace Round.Accounted

variable {format : Text} {x : Round}

theorem isSome_shown_iff [Stack] (h : x.Accounted format) :
    x.shown.isSome ↔ Passes format x.payload := by
  cases h with
  | @shown file text shown h => exact iff_of_true rfl ⟨text, shown, rfl, h⟩
  | malformed h =>
      refine iff_of_false Bool.false_ne_true ?_
      rintro ⟨text, shown, -, hshown⟩
      rw [h] at hshown
      cases hshown
  | located | unlocated =>
      refine iff_of_false Bool.false_ne_true ?_
      rintro ⟨text, shown, hp, -⟩
      cases hp

theorem exists_complaint [Stack] (h : x.Accounted format) {output report : Text}
    (hpayload : x.payload = .ofOutcome output report) (hshown : x.shown = none) :
    ∃ line ∈ x.complaints, line ≠ [] := by
  cases h with
  | shown => cases hshown
  | malformed => exact ⟨_, List.mem_singleton_self _, nofun⟩
  | located h hfound =>
      obtain ⟨⟨file, ds⟩, entries, hentries⟩ := List.exists_cons_of_ne_nil hfound
      have hds : ds ≠ [] := (wellFormed_extract h).ne_nil (file, ds) (by simp [hentries])
      obtain ⟨d, ds, rfl⟩ := List.exists_cons_of_ne_nil hds
      refine ⟨d.line file, by simp [hentries], ?_⟩
      simp [Diagnostic.line, Text.joinWith]
  | @unlocated _ report' =>
      refine ⟨report', List.mem_singleton_self _, ?_⟩
      rw [Payload.ofOutcome] at hpayload
      split at hpayload
      next => cases hpayload
      next hreport =>
        cases hpayload
        simpa using hreport

theorem preview_applyPayload (h : x.Accounted format) {shown : Text} (hshown : x.shown = some shown)
    {s : Session} (hs : s.state.format.display = format) :
    (s.applyPayload x.payload).state.preview = shown := by
  have hpreview : (s.applyPayload x.payload).state.preview =
      (Shown.settled s.state.format.display x.payload).preview :=
    congrArg Shown.preview (s.applyPayload_shown x.payload)
  rw [hpreview, hs]
  cases h with
  | shown h =>
      cases hshown
      simp [Shown.settled, Shown.ofPayload, h, Shown.ofResult]
  | malformed | located | unlocated => cases hshown

end Round.Accounted

/-- What a check does, file by file. -/
structure Accounts (c : Config) (w : World) (o : Outcome) (n : Nat) (rounds : List Round) :
    Prop where
  renders : Renders (Renderer.ofConfig c w).1 c (Renderer.ofConfig c w).2 rounds o.world
  accounted : ∀ x ∈ rounds, x.Accounted (Check.formatOf c)
  output : o.output = asLines (rounds.filterMap Round.shown)
  errors : o.errors = asLines (rounds.flatMap Round.complaints)
  complains : ∀ x ∈ rounds, x.shown = none → ∃ line ∈ x.complaints, line ≠ []
  code : n = 0 ∧ (∀ x ∈ rounds, Passes (Check.formatOf c) x.payload) ∨
    n = 1 ∧ ∃ x ∈ rounds, ¬ Passes (Check.formatOf c) x.payload
  preview : ∀ x ∈ rounds, ∀ shown, x.shown = some shown → ∀ s : Session,
    s.state.format.display = Check.formatOf c → (s.applyPayload x.payload).state.preview = shown

theorem Renders.exists_outcome {r : Renderer} {c : Config} {w w' : World} {rounds : List Round}
    (h : Renders r c w rounds w') {x : Round} (hx : x ∈ rounds) :
    ∃ output report, x.payload = .ofOutcome output report := by
  induction h with
  | nil => cases hx
  | cons ns hrender hpayload _ ih =>
      rcases List.mem_cons.1 hx with rfl | hx
      · exact ⟨_, _, hpayload⟩
      · exact ih hx

/-- A check that comes to its end has rendered every file, each once and in order, whatever failed
before it, and nothing of that is lost. -/
theorem runCheck_accounts {files : List Text} {c : Config} {log : LogSetup} {w : World} {n : Nat}
    (h : (runCheck files c log w).exit = .code n) :
    ∃ rounds : List Round, rounds.map Round.file = files ∧
      Accounts c w (runCheck files c log w) n rounds := by
  rcases hrun : Check.run c w files with ⟨s, none | fault⟩
  · obtain ⟨rounds, hfiles, hrenders, hrounds, houtput, herrors, hfailed⟩ :=
      Check.checkAll_accounts hrun
    have houtcome : runCheck files c log w =
        ⟨.code (if s.failed then 1 else 0), s.output, s.errors, some log, s.world⟩ := by
      rw [runCheck, hrun]
    rw [houtcome] at h ⊢
    obtain rfl := Exit.code.inj h
    refine ⟨rounds, hfiles, hrenders, hrounds, by simpa using houtput, by simpa using herrors,
      fun x hx => ?_, ?_, fun x hx _ hshown _ => (hrounds x hx).preview_applyPayload hshown⟩
    · obtain ⟨output, report, hpayload⟩ := hrenders.exists_outcome hx
      exact (hrounds x hx).exists_complaint hpayload
    · have hnone {x : Round} (hx : x ∈ rounds) :
          x.shown.isNone ↔ ¬ Passes (Check.formatOf c) x.payload := by
        rw [← (hrounds x hx).isSome_shown_iff]
        cases x.shown <;> simp
      rw [hfailed, Bool.false_or]
      split
      next hany =>
        obtain ⟨x, hx, hshown⟩ := List.any_eq_true.1 hany
        exact .inr ⟨rfl, x, hx, (hnone hx).1 hshown⟩
      next hany =>
        refine .inl ⟨rfl, fun x hx => ?_⟩
        exact not_not.1 fun hpasses =>
          hany (List.any_eq_true.2 ⟨x, hx, (hnone hx).2 hpasses⟩)
  · rw [runCheck, hrun] at h
    cases h

def failingWorld : World :=
  { Session.sampleWorld with
    outcomes := fun n =>
      if n = 1 then .exited 1 "" "RUNTIME ERROR: boom\n\tb.jsonnet:1:1-5\t\n"
      else .exited 0 "[]" "" }

def failingCheck : Outcome :=
  runCheck ["a.jsonnet", "b.jsonnet", "c.jsonnet"] .defaults ⟨.warning, .null⟩ failingWorld

theorem runCheck_accounts_failingCheck :
    failingCheck.exit = .code 1 ∧ failingCheck.output = "[]\n[]\n" ∧
      failingCheck.errors = "b.jsonnet:1:1: error: boom\n" ∧
      ∃ rounds : List Round, rounds.map Round.file = ["a.jsonnet", "b.jsonnet", "c.jsonnet"] ∧
        Accounts .defaults failingWorld failingCheck 1 rounds := by
  have hexit : failingCheck.exit = .code 1 := rfl
  exact ⟨hexit, rfl, rfl, runCheck_accounts hexit⟩

end CommandLine
end JsonnetPreview
