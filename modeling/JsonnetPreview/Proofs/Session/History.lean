import JsonnetPreview.Proofs.Session.Reachable

namespace JsonnetPreview

def DocumentState.document (d : DocumentState) : Text × Text × List Text :=
  (d.path, d.source, d.lines)

namespace Session

@[simp]
theorem endCycle_document (s : Session) (r : Except Fault Shown) :
    (s.endCycle r).state.document = s.state.document := by
  cases r <;> rfl

@[simp]
theorem applyPayload_document (s : Session) (p : Payload) :
    (s.applyPayload p).state.document = s.state.document :=
  endCycle_document _ _

theorem document_of_refreshes {s t : Session} (h : Refreshes s t) :
    t.state.document =
      match s.readSource with
      | .ok source => (s.state.withSource source).document
      | .error _ => s.state.document := by
  cases h with
  | unread fault hread =>
      rw [hread]
      exact endCycle_document s _
  | unrendered text fault world hread =>
      rw [hread]
      exact endCycle_document (s.asked text world) _
  | rendered text r world hread =>
      rw [hread]
      exact applyPayload_document ((s.asked text world).keep (.ofOutcome r.output r.report)) _

theorem Tells.state_eq {s t : Session} (h : s.Tells t) {u : Update}
    (hu : t.updates = s.updates ++ [u]) : u.state = t.state := by
  obtain ⟨fault, hu'⟩ := h
  obtain rfl : u = ⟨fault, t.state, t.cache⟩ := by simpa using hu.symm.trans hu'
  rfl

inductive Occurrence where
  | opened (path : Text)
  | read (path source : Text)
  | told (update : Update)

def reading (s : Session) : List Occurrence :=
  match s.readSource with
  | .ok source => [.read s.state.path source]
  | .error _ => []

inductive Happens (s : Session) : Session → List Occurrence → Prop
  | refresh (u) (hu : s.refresh.updates = s.updates ++ [u]) :
      Happens s s.refresh (s.reading ++ [.told u])
  | replay (name p u) (hname : (OutputFormat.ofName? name).isSome)
      (hcache : s.cache.get? (some s.state.path) = some p)
      (hu : ((s.withFormat name).applyPayload p).updates = s.updates ++ [u]) :
      Happens s ((s.withFormat name).applyPayload p) [.told u]
  | select (path) : Happens s (s.select path) [.opened path]
  | override (externals) : Happens s (s.withVariables externals) []
  | format (name) (hname : (OutputFormat.ofName? name).isSome)
      (hcache : s.cache.get? (some s.state.path) = none) : Happens s (s.withFormat name) []
  | watcher (watcher : Watcher) : Happens s { s with watcher } []
  | environment (files programs outcomes) :
      Happens s (s.inEnvironment files programs outcomes) []

theorem Refreshes.eq_refresh {s t : Session} (h : Refreshes s t) : t = s.refresh := by
  cases h with
  | unread fault hread => simp only [refresh, hread]
  | unrendered text fault world hread hrender =>
      simp only [refresh, hread, renderDocument, DocumentState.withSource, hrender]
      rfl
  | rendered text r world hread hrender =>
      simp only [refresh, hread, renderDocument, DocumentState.withSource, hrender]
      rfl

theorem Move.exists_happens {s t : Session} (h : Move s t) : ∃ os, Happens s t os := by
  cases h with
  | refresh ht =>
      obtain rfl := ht.eq_refresh
      obtain ⟨fault, hu⟩ := s.tells_refresh
      exact ⟨_, .refresh _ hu⟩
  | replay name p hname hcache =>
      exact ⟨_, .replay name p _ hname hcache (applyPayload_updates (s.withFormat name) p)⟩
  | select path => exact ⟨_, .select path⟩
  | override externals => exact ⟨_, .override externals⟩
  | format name hname hcache => exact ⟨_, .format name hname hcache⟩
  | watcher watcher => exact ⟨_, .watcher watcher⟩
  | environment files programs outcomes => exact ⟨_, .environment files programs outcomes⟩

/-- What has happened up to now. -/
inductive History : Session → List Occurrence → Prop
  | create {path config w s} (h : create path config w = .ok s) : History s []
  | step {s t os l} (h : History s l) (ht : Happens s t os) : History t (l ++ os)

theorem History.exists_refresh {s : Session} {l : List Occurrence} (h : History s l) :
    ∃ u : Update, u.state = s.refresh.state ∧
      History s.refresh (l ++ (s.reading ++ [.told u])) := by
  obtain ⟨fault, hu⟩ := s.tells_refresh
  exact ⟨_, rfl, h.step (.refresh _ hu)⟩

theorem exists_history {s : Session} (h : Reachable s) : ∃ l, History s l := by
  refine h.invariant (I := fun s => ∃ l, History s l) (fun hs => ⟨[], .create hs⟩) ?_
  rintro s t ht ⟨l, hl⟩
  obtain ⟨os, hos⟩ := ht.exists_happens
  exact ⟨l ++ os, hl.step hos⟩

namespace Occurrence

def told? : Occurrence → Option Update
  | told u => some u
  | opened _ | read _ _ => none

end Occurrence

theorem filterMap_reading (s : Session) : s.reading.filterMap Occurrence.told? = [] := by
  rw [reading]
  cases s.readSource <;> rfl

theorem History.updates {s : Session} {l : List Occurrence} (h : History s l) :
    l.filterMap Occurrence.told? = s.updates := by
  induction h with
  | create hs => exact (create_fresh hs).2.symm
  | step _ ht ih =>
      rw [List.filterMap_append, ih]
      cases ht with
      | refresh u hu => rw [List.filterMap_append, filterMap_reading, hu]; rfl
      | replay name p u _ _ hu => rw [hu]; rfl
      | select | override | format | watcher | environment => exact List.append_nil _

def NoReading (l : List Occurrence) : Prop := ∀ path source, .read path source ∉ l

theorem NoReading.concat {l : List Occurrence} (h : NoReading l) {o : Occurrence}
    (ho : ∀ path source, o ≠ .read path source) : NoReading (l ++ [o]) := by
  intro path source hmem
  rcases List.mem_append.1 hmem with hmem | hmem
  · exact h path source hmem
  · exact ho path source (List.mem_singleton.1 hmem).symm

/-- A source is the one that was read last. It is empty if none has been read, and it is of the
document at a path unless this has been opened since. -/
def LastRead (l : List Occurrence) (path source : Text) : Prop :=
  (source = [] ∧ NoReading l) ∨
    ∃ before p after, l = before ++ .read p source :: after ∧ NoReading after ∧
      (p = path ∨ .opened path ∈ after)

/-- A source is empty, or it has been read from the document at a path. -/
def IsOf (l : List Occurrence) (path source : Text) : Prop := source = [] ∨ .read path source ∈ l

/-- A source was read last from another document, and the one at the path has been opened since. -/
def IsStale (l : List Occurrence) (path source : Text) : Prop :=
  source ≠ [] ∧ ∃ before p after, l = before ++ .read p source :: after ∧ NoReading after ∧
    .opened path ∈ after ∧ .read path source ∉ Occurrence.read p source :: before

namespace LastRead

variable {l : List Occurrence} {path source : Text}

theorem of_read (l : List Occurrence) (path source : Text) :
    LastRead (l ++ [.read path source]) path source :=
  .inr ⟨l, path, [], rfl, fun _ _ => nofun, .inl rfl⟩

theorem concat (h : LastRead l path source) {o : Occurrence} (ho : ∀ p t, o ≠ .read p t)
    {path' : Text} (hpath : path' = path ∨ o = .opened path') :
    LastRead (l ++ [o]) path' source := by
  rcases h with ⟨hsource, hl⟩ | ⟨before, p, after, rfl, hafter, hp⟩
  · exact .inl ⟨hsource, hl.concat ho⟩
  · refine .inr ⟨before, p, after ++ [o], by simp, hafter.concat ho, ?_⟩
    rcases hpath with rfl | rfl
    · exact hp.imp_right (List.mem_append_left _)
    · exact .inr (List.mem_append_right _ (List.mem_singleton_self _))

/-- Nothing is shown of a document but what was read from it, unless it has been opened since the
last reading of another one. -/
theorem isOf_iff (h : LastRead l path source) : IsOf l path source ↔ ¬IsStale l path source := by
  constructor
  · rintro (hempty | hread) ⟨hsource, before, p, after, rfl, hafter, -, hbefore⟩
    · exact hsource hempty
    · rcases List.mem_append.1 hread with hread | hread
      · exact hbefore (List.mem_cons_of_mem _ hread)
      · rcases List.mem_cons.1 hread with heq | hread
        · exact hbefore (heq ▸ List.mem_cons_self)
        · exact hafter path source hread
  · intro hstale
    rcases h with ⟨hempty, -⟩ | ⟨before, p, after, rfl, hafter, rfl | hopened⟩
    · exact .inl hempty
    · exact .inr (List.mem_append_right _ List.mem_cons_self)
    · by_cases hsource : source = []
      · exact .inl hsource
      by_cases hbefore : .read path source ∈ Occurrence.read p source :: before
      · right
        rcases List.mem_cons.1 hbefore with heq | hmem
        · exact heq ▸ List.mem_append_right _ List.mem_cons_self
        · exact List.mem_append_left _ hmem
      · exact absurd ⟨hsource, before, p, after, rfl, hafter, hopened, hbefore⟩ hstale

end LastRead

/-- The lines that are shown are those of the source that was read last. -/
structure Sources (l : List Occurrence) (d : DocumentState) : Prop where
  lines : d.lines = d.source.lines
  lastRead : LastRead l d.path d.source

namespace Sources

variable {l : List Occurrence}

theorem congr {d d' : DocumentState} (h : Sources l d) (hd : d'.document = d.document) :
    Sources l d' := by
  obtain ⟨hpath, hsource, hlines⟩ := by simpa only [DocumentState.document, Prod.mk.injEq] using hd
  constructor
  · rw [hlines, hsource]
    exact h.lines
  · rw [hpath, hsource]
    exact h.lastRead

theorem told {d : DocumentState} (h : Sources l d) (u : Update) : Sources (l ++ [.told u]) d :=
  ⟨h.lines, h.lastRead.concat (by simp) (.inl rfl)⟩

theorem opened {s : Session} (h : Sources l s.state) (path : Text) :
    Sources (l ++ [.opened path]) (s.select path).state :=
  ⟨h.lines, h.lastRead.concat (by simp) (.inr rfl)⟩

theorem refresh {s : Session} (h : Sources l s.state) :
    Sources (l ++ s.reading) s.refresh.state := by
  have hdocument := document_of_refreshes s.refresh_cases
  rw [reading]
  cases hread : s.readSource with
  | error fault =>
      rw [hread] at hdocument
      rw [List.append_nil]
      exact h.congr hdocument
  | ok source =>
      rw [hread] at hdocument
      have hnew : Sources (l ++ [.read s.state.path source]) (s.state.withSource source) :=
        ⟨rfl, .of_read l s.state.path source⟩
      exact hnew.congr hdocument

end Sources

/-- Something holds of everything in a list and of what stands before it. -/
def AtEach {α : Type _} (P : List α → α → Prop) (l : List α) : Prop :=
  ∀ before x after, l = before ++ x :: after → P before x

theorem AtEach.concat {α : Type _} {P : List α → α → Prop} {l : List α} {x : α} (h : AtEach P l)
    (hx : P l x) : AtEach P (l ++ [x]) := by
  intro before y after heq
  rcases List.eq_nil_or_concat after with rfl | ⟨init, last, rfl⟩
  · obtain ⟨rfl, hxy⟩ := List.append_inj' heq rfl
    exact (List.cons.inj hxy).1 ▸ hx
  · rw [List.concat_eq_append, ← List.cons_append, ← List.append_assoc] at heq
    exact h before y init (List.append_inj' heq rfl).1

def TellsSources (before : List Occurrence) (o : Occurrence) : Prop :=
  ∀ u, o = .told u → Sources before u.state

theorem atEach_reading {l : List Occurrence} (h : AtEach TellsSources l) (s : Session) :
    AtEach TellsSources (l ++ s.reading) := by
  rw [reading]
  cases s.readSource with
  | error fault => rwa [List.append_nil]
  | ok source => exact h.concat fun u hu => nomatch hu

theorem sources_of_happens {s t : Session} {l os : List Occurrence} (ht : Happens s t os)
    (h : Sources l s.state ∧ AtEach TellsSources l) :
    Sources (l ++ os) t.state ∧ AtEach TellsSources (l ++ os) := by
  obtain ⟨hs, hl⟩ := h
  cases ht with
  | refresh u hu =>
      rw [← List.append_assoc]
      refine ⟨hs.refresh.told u, (atEach_reading hl s).concat ?_⟩
      rintro u ⟨⟩
      exact s.tells_refresh.state_eq hu ▸ hs.refresh
  | replay name p u _ _ hu =>
      have hreplay : Sources l ((s.withFormat name).applyPayload p).state :=
        hs.congr (applyPayload_document (s.withFormat name) p)
      refine ⟨hreplay.told u, hl.concat ?_⟩
      rintro u ⟨⟩
      exact ((s.withFormat name).tells_applyPayload p).state_eq hu ▸ hreplay
  | select path => exact ⟨hs.opened path, hl.concat fun u hu => nomatch hu⟩
  | override | format | watcher | environment =>
      rw [List.append_nil]
      exact ⟨hs.congr rfl, hl⟩

theorem sources_of_history {s : Session} {l : List Occurrence} (h : History s l) :
    Sources l s.state ∧ AtEach TellsSources l := by
  induction h with
  | create hs =>
      obtain ⟨externals, -, rfl⟩ := create_eq hs
      refine ⟨⟨rfl, .inl ⟨rfl, fun _ _ => nofun⟩⟩, ?_⟩
      intro before x after heq
      simp at heq
  | step _ ht ih => exact sources_of_happens ht ih

/-- Whatever is done with a session, what happens in it has an order, and each time that a cycle
tells what is there, the source is the one that was read last before it. It is one of the active
document unless this has been opened since and could not be read. -/
theorem source_of_told {s : Session} (hs : Reachable s) :
    (∃ l, History s l ∧ l.filterMap Occurrence.told? = s.updates) ∧
      ∀ l, History s l → ∀ before u after, l = before ++ .told u :: after →
        Sources before u.state ∧
          (IsOf before u.state.path u.state.source ↔
            ¬IsStale before u.state.path u.state.source) := by
  constructor
  · obtain ⟨l, hl⟩ := exists_history hs
    exact ⟨l, hl, hl.updates⟩
  · intro l hl before u after heq
    have hu : Sources before u.state := (sources_of_history hl).2 before (.told u) after heq u rfl
    exact ⟨hu, hu.lastRead.isOf_iff⟩

def bracesWorld : World :=
  { sampleWorld with
    files := { nodes := [([.ofString "main.jsonnet"], .file [123, 125])] } }

def bracesSession : Session := { sampleSession with world := bracesWorld }

theorem create_braces : create "main.jsonnet" .defaults bracesWorld = .ok bracesSession := rfl

def switchedHistory (u : Update) : List Occurrence :=
  [.read "main.jsonnet" "{}", .told u, .opened "other.jsonnet"]

theorem history_switched : ∃ u v : Update,
    v.state = (bracesSession.refresh.select "other.jsonnet").refresh.state ∧
      History (bracesSession.refresh.switchTo "other.jsonnet").1
        (switchedHistory u ++ [.told v]) := by
  obtain ⟨u, -, hu⟩ := (History.create create_braces).exists_refresh
  obtain ⟨v, hstate, hv⟩ := (hu.step (.select "other.jsonnet")).exists_refresh
  exact ⟨u, v, hstate, hv⟩

theorem reachable_switched : Reachable (bracesSession.refresh.switchTo "other.jsonnet").1 :=
  .perform (.switchTo "other.jsonnet") (.perform .refresh (.create create_braces))

theorem source_of_told_switched : ∃ u v : Update,
    Reachable (bracesSession.refresh.switchTo "other.jsonnet").1 ∧
      History (bracesSession.refresh.switchTo "other.jsonnet").1
        (switchedHistory u ++ [.told v]) ∧
      Sources (switchedHistory u) v.state ∧
      (IsOf (switchedHistory u) v.state.path v.state.source ↔
        ¬IsStale (switchedHistory u) v.state.path v.state.source) := by
  obtain ⟨u, v, -, hl⟩ := history_switched
  exact ⟨u, v, reachable_switched, hl,
    (source_of_told reachable_switched).2 _ hl (switchedHistory u) v [] rfl⟩

theorem told_switched : ∃ u v : Update,
    Reachable (bracesSession.refresh.switchTo "other.jsonnet").1 ∧
      History (bracesSession.refresh.switchTo "other.jsonnet").1
        (switchedHistory u ++ [.told v]) ∧
      v.state.document = (.ofString "other.jsonnet", .ofString "{}", [.ofString "{}"]) ∧
      ¬IsOf (switchedHistory u) v.state.path v.state.source := by
  obtain ⟨u, v, hstate, hl⟩ := history_switched
  have hdocument : v.state.document =
      (.ofString "other.jsonnet", .ofString "{}", [.ofString "{}"]) := by rw [hstate]; rfl
  refine ⟨u, v, reachable_switched, hl, hdocument, ?_⟩
  have hpath : v.state.path = .ofString "other.jsonnet" := congrArg (·.1) hdocument
  have hsource : v.state.source = .ofString "{}" := congrArg (·.2.1) hdocument
  rw [IsOf, hpath, hsource]
  rintro (hempty | hmem)
  · cases hempty
  · have hother : Text.ofString "other.jsonnet" = .ofString "main.jsonnet" := by
      simpa [switchedHistory] using hmem
    exact absurd hother (by decide)

end Session

end JsonnetPreview
