import JsonnetPreview.Proofs.Session.Following
import JsonnetPreview.Proofs.Session.History
import Mathlib.Data.List.Basic

namespace JsonnetPreview

/-- An event with the time at which it comes, and with what is on disk and can be run then. -/
structure Delivery where
  now : Number
  event : FileEvent
  files : FileTree
  programs : List Text
  outcomes : Nat → RunOutcome

namespace SaveHandler

variable {h : SaveHandler} {directory : Path} {x : Delivery}

/-- What is done with an event. One that cannot be handled leaves the handler as it is. -/
def next (h : SaveHandler) (directory : Path) (x : Delivery) : Bool × SaveHandler :=
  match h.handle directory x.now x.event with
  | .ok r => r
  | .error _ => (false, h)

def after (h : SaveHandler) (directory : Path) : List Delivery → SaveHandler
  | [] => h
  | x :: xs => (h.next directory x).2.after directory xs

def reports (h : SaveHandler) (directory : Path) : List Delivery → List Delivery
  | [] => []
  | x :: xs =>
    let (b, h') := h.next directory x
    if b then x :: h'.reports directory xs else h'.reports directory xs

def latest (h : SaveHandler) (directory : Path) (xs : List Delivery) : Number :=
  ((h.reports directory xs).getLast?.map (·.now)).getD h.lastSaved

/-- More than the debounce time has passed since the latest report. -/
def Due (h : SaveHandler) (directory : Path) (xs : List Delivery) (now : Number) : Prop :=
  ∃ elapsed, now.sub (h.latest directory xs) = .ok elapsed ∧ elapsed.le h.debounce = false

/-- What comes behind some deliveries leads to a report. -/
def Answers (h : SaveHandler) (directory : Path) (before xs : List Delivery) : Prop :=
  ∃ y ys, h.reports directory (before ++ xs) = h.reports directory before ++ y :: ys

theorem isTooSoon_eq_false_iff {now : Number} : h.isTooSoon now = .ok false ↔
    ∃ elapsed, now.sub h.lastSaved = .ok elapsed ∧ elapsed.le h.debounce = false := by
  rw [isTooSoon]
  cases now.sub h.lastSaved with
  | error cause => simp
  | ok elapsed => simp

theorem next_of_saves (hx : x.event.Saves directory h.target) (hnow : h.isTooSoon x.now = .ok false) :
    h.next directory x = (true, h.reported x.now) := by
  rw [next, handle_of_saves hx hnow]

theorem next_of_not (hx : ¬(x.event.Saves directory h.target ∧ h.isTooSoon x.now = .ok false)) :
    h.next directory x = (false, h) := by
  rw [← isSave_eq_true_iff] at hx
  rw [next, handle_eq]
  rcases hsave : h.isSave directory x.event with fault | _ | _
  · rfl
  · rfl
  · rcases hsoon : h.isTooSoon x.now with fault | _ | _
    · rfl
    · exact absurd ⟨hsave, hsoon⟩ hx
    · rfl

theorem next_cases (h : SaveHandler) (directory : Path) (x : Delivery) :
    (h.next directory x = (true, h.reported x.now) ∧
      x.event.Saves directory h.target ∧ h.isTooSoon x.now = .ok false) ∨
    (h.next directory x = (false, h) ∧
      ¬(x.event.Saves directory h.target ∧ h.isTooSoon x.now = .ok false)) := by
  by_cases hx : x.event.Saves directory h.target ∧ h.isTooSoon x.now = .ok false
  · exact .inl ⟨next_of_saves hx.1 hx.2, hx⟩
  · exact .inr ⟨next_of_not hx, hx⟩

theorem handle_of_next (hx : h.next directory x = (false, h)) :
    h.handle directory x.now x.event = .ok (false, h) ∨
      ∃ fault, h.handle directory x.now x.event = .error fault := by
  rw [next] at hx
  cases hhandle : h.handle directory x.now x.event with
  | error fault => exact .inr ⟨fault, rfl⟩
  | ok r => exact .inl (congrArg _ (by rwa [hhandle] at hx))

theorem next_target (h : SaveHandler) (directory : Path) (x : Delivery) :
    (h.next directory x).2.target = h.target := by
  rcases h.next_cases directory x with ⟨hx, -⟩ | ⟨hx, -⟩
  · exact congrArg (·.2.target) hx
  · exact congrArg (·.2.target) hx

section Reports

variable (xs ys : List Delivery)

theorem after_cons_of_reported (hx : h.next directory x = (true, h.reported x.now)) :
    h.after directory (x :: xs) = (h.reported x.now).after directory xs := by
  rw [after, hx]

theorem after_cons_of_not_reported (hx : h.next directory x = (false, h)) :
    h.after directory (x :: xs) = h.after directory xs := by
  rw [after, hx]

theorem reports_cons_of_reported (hx : h.next directory x = (true, h.reported x.now)) :
    h.reports directory (x :: xs) = x :: (h.reported x.now).reports directory xs := by
  rw [reports, hx]
  rfl

theorem reports_cons_of_not_reported (hx : h.next directory x = (false, h)) :
    h.reports directory (x :: xs) = h.reports directory xs := by
  rw [reports, hx]
  rfl

theorem reports_append :
    h.reports directory (xs ++ ys) =
      h.reports directory xs ++ (h.after directory xs).reports directory ys := by
  induction xs generalizing h with
  | nil => rfl
  | cons x xs ih =>
      rw [List.cons_append]
      rcases h.next_cases directory x with ⟨hx, -⟩ | ⟨hx, -⟩
      · rw [reports_cons_of_reported _ hx, reports_cons_of_reported _ hx,
          after_cons_of_reported _ hx, ih, List.cons_append]
      · rw [reports_cons_of_not_reported _ hx, reports_cons_of_not_reported _ hx,
          after_cons_of_not_reported _ hx, ih]

theorem after_eq : h.after directory xs = h.reported (h.latest directory xs) := by
  induction xs generalizing h with
  | nil => rfl
  | cons x xs ih =>
      rcases h.next_cases directory x with ⟨hx, -⟩ | ⟨hx, -⟩
      · rw [after_cons_of_reported _ hx, ih, latest, latest, reports_cons_of_reported _ hx,
          List.getLast?_cons]
        cases ((h.reported x.now).reports directory xs).getLast? <;> rfl
      · rw [after_cons_of_not_reported _ hx, ih, latest, latest,
          reports_cons_of_not_reported _ hx]

theorem isTooSoon_after_iff {now : Number} :
    (h.after directory xs).isTooSoon now = .ok false ↔ h.Due directory xs now := by
  rw [isTooSoon_eq_false_iff, after_eq]
  rfl

theorem reports_ne_nil_iff :
    h.reports directory ys ≠ [] ↔
      ∃ y ∈ ys, y.event.Saves directory h.target ∧ h.isTooSoon y.now = .ok false := by
  induction ys with
  | nil => simp [reports]
  | cons y ys ih =>
      rw [List.exists_mem_cons_iff]
      rcases h.next_cases directory y with ⟨hnext, hy⟩ | ⟨hnext, hy⟩
      · rw [reports_cons_of_reported _ hnext]
        exact iff_of_true (List.cons_ne_nil _ _) (.inl hy)
      · rw [reports_cons_of_not_reported _ hnext, ih, or_iff_right hy]

theorem answers_iff :
    h.Answers directory xs ys ↔
      ∃ y ∈ ys, y.event.Saves directory h.target ∧ h.Due directory xs y.now := by
  have hreports : h.Answers directory xs ys ↔ (h.after directory xs).reports directory ys ≠ [] := by
    rw [Answers, reports_append, List.ne_nil_iff_exists_cons]
    simp only [List.append_cancel_left_eq]
  rw [hreports, reports_ne_nil_iff]
  simp only [isTooSoon_after_iff]
  rw [after_eq]
  rfl

end Reports

end SaveHandler

namespace Session

variable {s : Session} {n : Nat} {h : SaveHandler} {x : Delivery}

def meet (s : Session) (x : Delivery) : Session := s.inEnvironment x.files x.programs x.outcomes

def deliver (s : Session) (x : Delivery) : Session :=
  (s.perform (.environment x.files x.programs x.outcomes)).perform (.event x.now x.event)

def deliverAll (s : Session) (xs : List Delivery) : Session := xs.foldl deliver s

theorem deliver_of_saves (hs : s.watcher.Watches n h)
    (hx : x.event.Saves s.world.directory h.target) (hnow : h.isTooSoon x.now = .ok false) :
    s.deliver x =
      { s.meet x with watcher := s.watcher.keep n (h.reported x.now) }.refresh :=
  congrArg Prod.fst (handleEvent_of_saves (s := s.meet x) hs hx hnow)

theorem deliver_of_not_reported (hs : s.watcher.Watches n h)
    (hx : h.next s.world.directory x = (false, h)) : s.deliver x = s.meet x := by
  have hmeet : (s.meet x).watcher.Watches n h := hs
  show ((s.meet x).handleEvent x.now x.event).1 = s.meet x
  rcases SaveHandler.handle_of_next (show h.next (s.meet x).world.directory x = _ from hx) with
    hhandle | ⟨fault, hhandle⟩
  · rw [handleEvent_of_watches hmeet, hhandle]
    show { s.meet x with watcher := (s.meet x).watcher.keep n h } = s.meet x
    rw [hmeet.keep]
  · rw [handleEvent_of_watches hmeet, hhandle]

theorem deliver_watches (hs : s.watcher.Watches n h) (x : Delivery) :
    (s.deliver x).watcher.Watches n (h.next s.world.directory x).2 ∧
      (s.deliver x).world.directory = s.world.directory := by
  rcases h.next_cases s.world.directory x with ⟨hnext, hx, hnow⟩ | ⟨hnext, -⟩
  · rw [deliver_of_saves hs hx hnow, refresh_watcher, refresh_directory, hnext]
    exact ⟨hs.keep_watches _, rfl⟩
  · rw [deliver_of_not_reported hs hnext, hnext]
    exact ⟨hs, rfl⟩

theorem deliverAll_watches (hs : s.watcher.Watches n h) (xs : List Delivery) :
    (s.deliverAll xs).watcher.Watches n (h.after s.world.directory xs) ∧
      (s.deliverAll xs).world.directory = s.world.directory := by
  induction xs generalizing s h with
  | nil => exact ⟨hs, rfl⟩
  | cons x xs ih =>
      obtain ⟨hwatches, hdirectory⟩ := deliver_watches hs x
      obtain ⟨hwatches, hdirectory'⟩ := ih hwatches
      rw [hdirectory] at hwatches hdirectory'
      exact ⟨hwatches, hdirectory'⟩

theorem deliverAll_of_not_saves (hs : s.watcher.Watches n h) {xs : List Delivery}
    (hxs : ∀ x ∈ xs, ¬x.event.Saves s.world.directory h.target) :
    (s.deliverAll xs).state = s.state := by
  induction xs generalizing s with
  | nil => rfl
  | cons x xs ih =>
      obtain ⟨hx, hxs⟩ := List.forall_mem_cons.1 hxs
      have hdeliver : s.deliver x = s.meet x :=
        deliver_of_not_reported hs (SaveHandler.next_of_not fun hsave => hx hsave.1)
      show ((s.deliver x).deliverAll xs).state = s.state
      rw [hdeliver]
      exact ih (s := s.meet x) hs hxs

/-- What a refresh shows with what is on disk and can be run at a delivery. -/
def ShowsFrom (s : Session) (x : Delivery) (d : DocumentState) : Prop :=
  ∃ w : Watcher, d = { s.meet x with watcher := w }.refresh.state

theorem ShowsFrom.source_eq {d : DocumentState} (hd : s.ShowsFrom x d) {source : Text}
    (hread : (s.meet x).readSource = .ok source) : d.source = source := by
  obtain ⟨w, rfl⟩ := hd
  have hdocument := document_of_refreshes (refresh_cases { s.meet x with watcher := w })
  rw [show readSource { s.meet x with watcher := w } = .ok source from hread] at hdocument
  exact congrArg (·.2.1) hdocument

theorem deliverAll_append_cons (s : Session) (xs : List Delivery) (x : Delivery)
    (ys : List Delivery) :
    s.deliverAll (xs ++ x :: ys) = ((s.deliverAll xs).deliver x).deliverAll ys := by
  rw [deliverAll, List.foldl_append]
  rfl

section LastSave

variable (hs : s.watcher.Watches n h) (before : List Delivery) {rest : List Delivery}
  (hrest : ∀ y ∈ rest, ¬y.event.Saves s.world.directory h.target)

include hs hrest

theorem showsFrom_of_due (hx : x.event.Saves s.world.directory h.target)
    (hdue : h.Due s.world.directory before x.now) :
    (s.deliverAll before).ShowsFrom x (s.deliverAll (before ++ x :: rest)).state := by
  obtain ⟨hbefore, hdirectory⟩ := deliverAll_watches hs before
  obtain ⟨hdeliver, hdirectory'⟩ := deliver_watches hbefore x
  rw [deliverAll_append_cons, deliverAll_of_not_saves hdeliver]
  · rw [deliver_of_saves hbefore]
    · exact ⟨_, rfl⟩
    · rw [hdirectory, SaveHandler.after_eq]
      exact hx
    · exact (SaveHandler.isTooSoon_after_iff before).2 hdue
  · rw [hdirectory', hdirectory, SaveHandler.next_target, SaveHandler.after_eq]
    exact hrest

theorem state_of_not_due (hdue : ¬h.Due s.world.directory before x.now) :
    (s.deliverAll (before ++ x :: rest)).state = (s.deliverAll before).state := by
  obtain ⟨hbefore, hdirectory⟩ := deliverAll_watches hs before
  have hdeliver : (s.deliverAll before).deliver x = (s.deliverAll before).meet x := by
    refine deliver_of_not_reported hbefore (SaveHandler.next_of_not fun hx => hdue ?_)
    exact (SaveHandler.isTooSoon_after_iff before).1 hx.2
  have hmeet : ((s.deliverAll before).meet x).watcher.Watches n
      (h.after s.world.directory before) := hbefore
  rw [deliverAll_append_cons, hdeliver, deliverAll_of_not_saves hmeet]
  · rfl
  · rw [show ((s.deliverAll before).meet x).world.directory = _ from hdirectory,
      SaveHandler.after_eq]
    exact hrest

end LastSave

/-- However saves are timed, one is followed by a report exactly if it or a save behind it comes
more than the debounce time after the latest report before it. If the last save does, what is shown
in the end is made of its contents, and otherwise what was shown before it stays. -/
theorem shown_of_saves (h : SaveHandler) (directory : Path) (before : List Delivery) {x : Delivery}
    (hx : x.event.Saves directory h.target) (rest : List Delivery) :
    (h.Answers directory before (x :: rest) ↔
      ∃ y ∈ x :: rest, y.event.Saves directory h.target ∧ h.Due directory before y.now) ∧
    ∀ (s : Session) (n : Nat), s.watcher.Watches n h → s.world.directory = directory →
      (∀ y ∈ rest, ¬y.event.Saves directory h.target) →
        (h.Due directory before x.now →
          (s.deliverAll before).ShowsFrom x (s.deliverAll (before ++ x :: rest)).state) ∧
        (¬h.Due directory before x.now →
          (s.deliverAll (before ++ x :: rest)).state = (s.deliverAll before).state) := by
  refine ⟨SaveHandler.answers_iff before _, ?_⟩
  rintro s n hs rfl hrest
  exact ⟨showsFrom_of_due hs before hrest hx, state_of_not_due hs before hrest⟩

def rewriting (now : Number) (content : Octets) : Delivery where
  now
  event := writing "main.jsonnet"
  files := { nodes := [([.ofString "main.jsonnet"], .file content)] }
  programs := ["jsonnet"]
  outcomes := sampleWorld.outcomes

def quarterPast : Number := .float (Binary64.ofScaled (5 * Nat.pow 2 1072))

def startedSession : Session := sampleSession.perform .start

theorem watches_startedSession : startedSession.watcher.Watches 0 mainHandler := ⟨rfl, _, rfl⟩

theorem directory_startedSession : startedSession.world.directory = ⟨.root, []⟩ := rfl

theorem saves_rewriting (now : Number) (content : Octets) :
    (rewriting now content).event.Saves ⟨.root, []⟩ mainHandler.target := ⟨_, rfl, rfl⟩

theorem due_one : mainHandler.Due ⟨.root, []⟩ [] (.int 1) :=
  (SaveHandler.isTooSoon_after_iff []).1 isTooSoon_mainHandler

theorem not_due_quarterPast (content : Octets) :
    ¬mainHandler.Due ⟨.root, []⟩ [rewriting (.int 1) content] quarterPast := by
  have hlatest : mainHandler.latest ⟨.root, []⟩ [rewriting (.int 1) content] = .int 1 := by
    rw [SaveHandler.latest, SaveHandler.reports_cons_of_reported _
      (SaveHandler.next_of_saves (saves_rewriting _ content) isTooSoon_mainHandler)]
    rfl
  have hsoon : ((mainHandler.reported (.int 1)).isTooSoon quarterPast).toOption = some true := by
    decide +kernel
  rw [← SaveHandler.isTooSoon_after_iff, SaveHandler.after_eq, hlatest]
  intro hdue
  rw [hdue] at hsoon
  cases hsoon

theorem shown_of_saves_rewriting :
    mainHandler.Answers ⟨.root, []⟩ [] [rewriting (.int 1) [91, 93]] ∧
      startedSession.ShowsFrom (rewriting (.int 1) [91, 93])
        (startedSession.deliverAll [rewriting (.int 1) [91, 93]]).state := by
  obtain ⟨hanswers, hshown⟩ :=
    shown_of_saves mainHandler ⟨.root, []⟩ [] (saves_rewriting (.int 1) [91, 93]) []
  constructor
  · exact hanswers.2 ⟨_, List.mem_singleton_self _, saves_rewriting _ _, due_one⟩
  · exact (hshown startedSession 0 watches_startedSession directory_startedSession nofun).1 due_one

theorem not_answers_rewriting :
    (Number.int 1).le quarterPast = true ∧
      (rewriting quarterPast [49]).event.Saves ⟨.root, []⟩ mainHandler.target ∧
      ¬mainHandler.Answers ⟨.root, []⟩ [rewriting (.int 1) []] [rewriting quarterPast [49]] ∧
      (startedSession.deliverAll
        [rewriting (.int 1) [], rewriting quarterPast [49]]).state.source = [] ∧
      (rewriting quarterPast [49]).files.read ⟨.root, []⟩ "main.jsonnet" = .ok [49] := by
  refine ⟨by decide +kernel, saves_rewriting _ _, ?_, ?_, rfl⟩
  · rw [SaveHandler.answers_iff]
    rintro ⟨y, hy, -, hdue⟩
    obtain rfl := List.mem_singleton.1 hy
    exact not_due_quarterPast _ hdue
  · have hstate : (startedSession.deliverAll
        [rewriting (.int 1) [], rewriting quarterPast [49]]).state =
          (startedSession.deliverAll [rewriting (.int 1) []]).state :=
      state_of_not_due watches_startedSession [rewriting (.int 1) []] nofun
        (not_due_quarterPast _)
    have hshows : startedSession.ShowsFrom (rewriting (.int 1) [])
        (startedSession.deliverAll [rewriting (.int 1) []]).state :=
      showsFrom_of_due watches_startedSession [] nofun (saves_rewriting _ _) due_one
    have hread : (startedSession.meet (rewriting (.int 1) [])).readSource = .ok [] := rfl
    rw [hstate, hshows.source_eq hread]

end Session

end JsonnetPreview
