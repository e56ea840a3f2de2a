import JsonnetPreview.Proofs.Panel.Panes
import JsonnetPreview.Proofs.Session.Interleaving

namespace JsonnetPreview

open Session

inductive Message where
  /-- A cycle has ended. -/
  | told
  /-- Variables have been submitted. -/
  | submitted (externals : VariableTable)

/-- A screen with what the action in progress has still to do, the callbacks that have come and have
not got the lock yet, and the messages that are not handled yet. -/
structure Console where
  screen : Screen
  todo : List Instruction := []
  waiting : Nat := 0
  messages : List Message := []

namespace Screen

/-- What a key asks the session for, and what it changes before. -/
inductive Asks (x : Screen) : Request → Screen → Prop
  | refresh : Asks x .refresh { x with bar := x.bar.update { status := some "rendering" } }
  | otherFormat : Asks x (.setFormat (otherFormat x.session.state.format).name) x
  | nextDocument (path : Text) (hmany : 2 ≤ x.documents.length)
      (hpath : x.documents[(x.active + 1) % x.documents.length]? = some path) :
      Asks x (.switchTo path) { x with active := (x.active + 1) % x.documents.length }

end Screen

namespace Console

def tidings (ms : List Moment) : List Message :=
  ms.filterMap fun
    | .cycle => some .told
    | _ => none

def goOn (x : Console) (s : Session) (todo : List Instruction) (ms : List Moment) : Console :=
  { x with
    screen := { x.screen with session := s }
    todo
    messages := x.messages ++ tidings ms }

/-- The thread of the panes does one thing at a time; callbacks of the watch get in between any two
instructions of an action. A message that is handled while a callback is in its cycle may find
anything in the state that a cycle sets. -/
inductive Step (x : Console) : Console → Prop
  | ask {r y} (hidle : x.todo = []) (h : x.screen.Asks r y) :
      Step x { x with screen := y, todo := r.instructions }
  | proceed {i rest ms t next} (htodo : x.todo = i :: rest)
      (h : x.screen.session.Does i ms t next) : Step x (x.goOn t (next ++ rest) ms)
  | event {now e reports w}
      (h : x.screen.session.watcher.dispatch x.screen.session.world.directory now e =
        .ok (reports, w)) :
      Step x { x with
        screen := { x.screen with session := { x.screen.session with watcher := w } }
        waiting := x.waiting + reports }
  | serve {n} (hwaiting : x.waiting = n + 1) :
      Step x { x.goOn x.screen.session.refresh x.todo [.cycle] with waiting := n }
  | environment (files programs outcomes) :
      Step x { x with
        screen := { x.screen with
          session := x.screen.session.inEnvironment files programs outcomes } }
  | handle {before after y} (hidle : x.todo = []) (hmessages : x.messages = before ++ .told :: after)
      (h : x.screen.setPanes = .ok y) :
      Step x { x with screen := y, messages := before ++ after }
  | overlap {before after n y} (hidle : x.todo = [])
      (hmessages : x.messages = before ++ .told :: after) (hwaiting : x.waiting = n + 1)
      (hsession : y.session = x.screen.session) (hdocuments : y.documents = x.screen.documents)
      (hactive : y.active = x.screen.active)
      (hformat : y.bar.format =
        (Screen.formatOf x.screen.session.state.format).getD x.screen.bar.format) :
      Step x { { x with screen := y, messages := before ++ after }.goOn
        y.session.refresh x.todo [.cycle] with waiting := n }
  | configure {before after externals} (hidle : x.todo = [])
      (hmessages : x.messages = before ++ .submitted externals :: after) :
      Step x { x with
        todo := (Request.setVariables externals).instructions
        messages := before ++ after }
  | submit (hidle : x.todo = []) :
      Step x { x with
        screen := { x.screen with popup := x.screen.popup.close }
        messages := x.messages ++ [.submitted (.ofTexts x.screen.popup.externals)] }
  | popup (hidle : x.todo = []) (p : Popup) :
      Step x { x with screen := { x.screen with popup := p } }
  | nextDiagnostic (hidle : x.todo = []) :
      Step x { x with screen := { x.screen with peek := x.screen.peek.next } }
  | previousDiagnostic (hidle : x.todo = []) :
      Step x { x with screen := { x.screen with peek := x.screen.peek.previous } }

abbrev Run := Relation.ReflTransGen Step

theorem Run.proceed {x : Console} {y : Screen} {i rest ms t next n l}
    (hrun : Run x ⟨y, i :: rest, n, l⟩) (h : y.session.Does i ms t next) :
    Run x ⟨{ y with session := t }, next ++ rest, n, l ++ tidings ms⟩ :=
  hrun.tail (.proceed rfl h)

def IsAsked : Request → Prop
  | .setFormat name => (OutputFormat.ofName? name).isSome
  | .stop => False
  | _ => True

theorem run_setFormat (x : Screen) {name : Text} (hname : (OutputFormat.ofName? name).isSome) :
    Run ⟨x, (Request.setFormat name).instructions, 0, []⟩
      ⟨{ x with session := (x.session.setFormat name).1 }, [], 0, [.told]⟩ := by
  rw [Request.instructions, if_pos hname]
  cases hcache : x.session.cache.get? (some x.session.state.path) with
  | some p =>
      rw [setFormat_of_get? hname hcache]
      exact Run.proceed .refl (.replay name p hname hcache)
  | none =>
      rw [setFormat_of_get?_none hname hcache]
      exact Run.proceed (Run.proceed .refl (.format name hname hcache)) .refresh

theorem run_request (x : Screen) {r : Request} (hr : IsAsked r) :
    Run ⟨x, r.instructions, 0, []⟩
      ⟨{ x with session := x.session.perform r.action }, [], 0, [.told]⟩ := by
  cases r with
  | refresh => exact Run.proceed .refl .refresh
  | switchTo path =>
      rw [Request.action, perform, Shared.perform_switchTo]
      exact Run.proceed (Run.proceed (Run.proceed .refl (.select path)) .refresh) .follow
  | setFormat name => exact run_setFormat x hr
  | setVariables externals =>
      exact Run.proceed (Run.proceed (Run.proceed .refl (.configure externals))
        (.present externals)) .refresh
  | start => exact Run.proceed (Run.proceed .refl .refresh) .watch
  | stop => exact hr.elim

theorem cycles_request (s : Session) {r : Request} (hr : IsAsked r) :
    (s.perform r.action).cycles = s.cycles + 1 := by
  cases r with
  | refresh => exact s.tells_refresh.length_updates
  | switchTo path =>
      rw [Request.action, perform, Shared.perform_switchTo]
      obtain ⟨w, hw⟩ := followActive_eq (s.select path).refresh
      rw [hw]
      exact (s.select path).tells_refresh.length_updates
  | setFormat name =>
      rw [Request.action, perform]
      cases hcache : s.cache.get? (some s.state.path) with
      | some p =>
          rw [setFormat_of_get? hr hcache]
          exact ((s.withFormat name).tells_applyPayload p).length_updates
      | none =>
          rw [setFormat_of_get?_none hr hcache]
          exact (s.withFormat name).tells_refresh.length_updates
  | setVariables externals => exact (s.withVariables externals).tells_refresh.length_updates
  | start =>
      obtain ⟨w, hw⟩ := follow_eq s.refresh
      rw [Request.action, perform, start, hw]
      exact s.tells_refresh.length_updates
  | stop => exact hr.elim

section Screen

variable {x y : Screen}

theorem follow_of_cycles_eq {t : Session} (h : t.cycles = x.session.cycles) :
    x.follow t = ({ x with session := t }, none) :=
  if_pos h

theorem setPanes_of_follow {t : Session} (h : x.follow t = (y, none))
    (hcycles : t.cycles ≠ x.session.cycles) : Screen.setPanes { x with session := t } = .ok y := by
  rw [Screen.follow, if_neg hcycles] at h
  split at h
  next hy =>
    cases h
    exact hy
  next => cases h

theorem follow_of_followStep {p : Session.Step} (h : x.followStep p = (y, none)) :
    x.follow p.1 = (y, none) := by
  obtain ⟨t, fault⟩ := p
  cases fault with
  | none => exact h
  | some fault => cases h

theorem run_setPanes {r : Request} (hr : IsAsked r)
    (h : Screen.setPanes { x with session := x.session.perform r.action } = .ok y) :
    Run ⟨x, r.instructions, 0, []⟩ ⟨y, [], 0, []⟩ := by
  have hhandle : Step ⟨{ x with session := x.session.perform r.action }, [], 0, [.told]⟩
      ⟨y, [], 0, [] ++ []⟩ := .handle rfl (List.nil_append _).symm h
  exact (run_request x hr).tail hhandle

theorem run_follow {r : Request} (hr : IsAsked r)
    (h : x.follow (x.session.perform r.action) = (y, none)) :
    Run ⟨x, r.instructions, 0, []⟩ ⟨y, [], 0, []⟩ := by
  refine run_setPanes hr (setPanes_of_follow h ?_)
  rw [cycles_request x.session hr]
  exact Nat.succ_ne_self _

theorem run_start {documents : List Text} {s : Session}
    (h : Screen.start documents s = (y, none)) :
    Run ⟨{ session := s, documents }, Request.start.instructions, 0, []⟩ ⟨y, [], 0, []⟩ :=
  run_follow trivial (r := .start) (follow_of_followStep h)

theorem run_refresh (h : x.follow x.session.refresh = (y, none)) :
    Run ⟨x, [], 0, []⟩ ⟨y, [], 0, []⟩ := by
  have hcycles : x.session.refresh.cycles ≠ x.session.cycles := by
    rw [cycles, x.session.tells_refresh.length_updates]
    exact Nat.succ_ne_self _
  refine .head (.ask rfl .refresh) (run_setPanes (r := .refresh) trivial ?_)
  have hbar := Screen.setPanes_withBar (x := { x with session := x.session.refresh })
    (x.bar.update { status := some "rendering" }) rfl
  exact hbar.trans (setPanes_of_follow h hcycles)

theorem run_toggleFormat (h : x.toggleFormat = (y, none)) : Run ⟨x, [], 0, []⟩ ⟨y, [], 0, []⟩ := by
  refine .head (.ask rfl .otherFormat) (run_follow ?_ (follow_of_followStep h))
  rw [IsAsked, OutputFormat.ofName?_name]
  rfl

theorem run_nextDocument (h : x.nextDocument = (y, none)) : Run ⟨x, [], 0, []⟩ ⟨y, [], 0, []⟩ := by
  rw [Screen.nextDocument] at h
  split at h
  next =>
    cases h
    exact .refl
  next hmany =>
    have hlt : (x.active + 1) % x.documents.length < x.documents.length :=
      Nat.mod_lt _ (by omega)
    have hpath := List.getElem?_eq_getElem hlt
    have hask := Screen.Asks.nextDocument _ (Nat.not_lt.1 hmany) hpath
    refine .head (.ask rfl hask) (run_follow trivial ?_)
    have hfollow := follow_of_followStep h
    rw [hpath] at hfollow
    exact hfollow

theorem run_submit (h : x.submit = (y, none)) : Run ⟨x, [], 0, []⟩ ⟨y, [], 0, []⟩ := by
  refine .head (.submit rfl) (.head (.configure rfl (List.nil_append [Message.submitted _]).symm) ?_)
  exact run_follow (r := .setVariables _) trivial h

theorem run_press {k : Key} (h : x.press k = (y, none)) : Run ⟨x, [], 0, []⟩ ⟨y, [], 0, []⟩ := by
  rw [Screen.press] at h
  split at h
  · cases k with
    | enter => exact run_submit h
    | letter | named | edit | escape | tab | backTab =>
        cases h
        exact .single (.popup rfl _)
    | other =>
        cases h
        exact .refl
  · unfold Screen.pressInPanes at h
    split at h
    case h_1 => exact run_refresh h
    case h_2 => exact run_toggleFormat h
    case h_3 =>
      cases h
      exact .single (.popup rfl _)
    case h_4 => exact run_nextDocument h
    case h_5 =>
      cases h
      exact .single (.nextDiagnostic rfl)
    case h_6 =>
      cases h
      exact .single (.previousDiagnostic rfl)
    case h_7 | h_8 =>
      obtain rfl := (Prod.mk.inj h).1
      split
      · exact .single (.popup rfl _)
      · exact .refl
    case h_9 =>
      cases h
      exact .refl

theorem run_serve (x : Screen) (n : Nat) (l : List Message) :
    Run ⟨x, [], n, l⟩
      ⟨{ x with session := x.session.refreshTimes n }, [], 0, l ++ .replicate n .told⟩ := by
  induction n generalizing x l with
  | zero =>
      rw [List.replicate_zero, List.append_nil]
      exact .refl
  | succ n ih =>
      have hserve : Step ⟨x, [], n + 1, l⟩
          ⟨{ x with session := x.session.refresh }, [], n, l ++ [.told]⟩ := .serve rfl
      rw [List.replicate_succ, List.append_cons]
      exact .head hserve (ih _ _)

theorem run_handle (h : x.setPanes = .ok y) (n : Nat) :
    Run ⟨x, [], 0, .replicate (n + 1) .told⟩ ⟨y, [], 0, []⟩ := by
  have hhandle (x : Screen) (l : List Message) (hx : x.setPanes = .ok y) :
      Step ⟨x, [], 0, .told :: l⟩ ⟨y, [], 0, [] ++ l⟩ := .handle rfl (List.nil_append _).symm hx
  induction n generalizing x with
  | zero => exact .single (hhandle x [] h)
  | succ n ih => exact .head (hhandle x _ h) (ih (Screen.setPanes_setPanes h))

theorem cycles_refreshTimes (s : Session) (n : Nat) :
    (s.refreshTimes n).cycles = s.cycles + n := by
  induction n generalizing s with
  | zero => rfl
  | succ n ih =>
      rw [refreshTimes, ih, cycles, s.tells_refresh.length_updates, cycles]
      omega

theorem run_handleEvent {now : Number} {e : FileEvent} (h : x.handleEvent now e = (y, none)) :
    Run ⟨x, [], 0, []⟩ ⟨y, [], 0, []⟩ := by
  rw [Screen.handleEvent, Session.handleEvent] at h
  cases hdispatch : x.session.watcher.dispatch x.session.world.directory now e with
  | error fault =>
      rw [hdispatch] at h
      cases h
  | ok handled =>
      obtain ⟨n, w⟩ := handled
      rw [hdispatch] at h
      obtain ⟨t, ht⟩ : ∃ t, t = { x.session with watcher := w } := ⟨_, rfl⟩
      have hcycles : t.cycles = x.session.cycles := ht ▸ rfl
      have hfollow : x.follow (t.refreshTimes n) = (y, none) := ht ▸ follow_of_followStep h
      have hevent : Step ⟨x, [], 0, []⟩ ⟨{ x with session := t }, [], 0 + n, []⟩ :=
        ht ▸ .event hdispatch
      rw [Nat.zero_add] at hevent
      refine .head hevent ((run_serve _ n []).trans ?_)
      cases n with
      | zero =>
          rw [refreshTimes, follow_of_cycles_eq hcycles] at hfollow
          obtain rfl := (Prod.mk.inj hfollow).1
          exact .refl
      | succ n =>
          refine run_handle (setPanes_of_follow hfollow ?_) n
          rw [cycles_refreshTimes, hcycles]
          omega

end Screen

end Console

end JsonnetPreview
