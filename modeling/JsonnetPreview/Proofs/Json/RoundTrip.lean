import JsonnetPreview.Proofs.Json.Numbers
import JsonnetPreview.Proofs.Json.Readable

namespace JsonnetPreview.Json

variable {s : Style} {scopes : List Scope} {p : Nat}

theorem isSpace_of_mem_lead {depth : Nat} {c : CodePoint} (h : c ∈ s.lead depth) : isSpace c := by
  rw [Style.lead] at h
  split at h
  next =>
    rcases List.mem_cons.1 h with rfl | h
    · rfl
    · obtain rfl := List.eq_of_mem_replicate h
      rfl
  next => cases h

theorem run_spaces [Stack] {st : State} (hst : ∀ p c, isSpace c → step st p c = .ok st) {t : Text}
    (ht : ∀ c ∈ t, isSpace c) : run st p t = .ok st := by
  induction t generalizing p with
  | nil => rfl
  | cons c r ih =>
      obtain ⟨hc, hr⟩ := List.forall_mem_cons.1 ht
      exact run_cons_eq_ok.2 ⟨st, hst p c hc, ih hr⟩

theorem run_of_run_eq_ok [Stack] {st st' : State} {t : Text} (h : run st p t = .ok st') (tail : Text) :
    ∃ q, run st p (t ++ tail) = run st' q tail := by
  refine ⟨p + t.length, ?_⟩
  rw [run_append, h]
  rfl

theorem run_lead [Stack] {st : State} (hst : ∀ p c, isSpace c → step st p c = .ok st) (depth : Nat)
    (tail : Text) : ∃ q, run st p (s.lead depth ++ tail) = run st q tail :=
  run_of_run_eq_ok (run_spaces hst fun _ => isSpace_of_mem_lead) tail

theorem run_lead_value [Stack] (scopes : List Scope) (p : Nat) (mayClose : Bool) (depth : Nat)
    (tail : Text) : ∃ q, run ⟨.value mayClose, scopes⟩ p (s.lead depth ++ tail) =
      run ⟨.value mayClose, scopes⟩ q tail :=
  run_lead (fun p c hc => by simp [step, hc]) depth tail

theorem run_delimiter [Stack] {m : Mode} {v : Json} (hv : m.value? = some v) {c : CodePoint}
    (hc : IsDelimiter c) (r : Text) :
    run ⟨m, scopes⟩ p (c :: r) = run ⟨.after v, scopes⟩ p (c :: r) := by
  rw [run, run, step_of_value? hv hc]
  rfl

theorem run_lead_after [Stack] (scopes : List Scope) (p : Nat) {m : Mode} {v : Json}
    (hv : m.value? = some v) (depth : Nat) {c : CodePoint} (hc : IsDelimiter c) (r : Text) :
    ∃ q, run ⟨m, scopes⟩ p (s.lead depth ++ c :: r) = run ⟨.after v, scopes⟩ q (c :: r) := by
  have hafter (p : Nat) (c : CodePoint) (hc : isSpace c) :
      step ⟨.after v, scopes⟩ p c = .ok ⟨.after v, scopes⟩ := by
    simp [step, stepAfter, hc]
  obtain ⟨q, hq⟩ := run_lead (s := s) (p := p) hafter depth (c :: r)
  refine ⟨q, ?_⟩
  rw [← hq]
  cases hlead : s.lead depth with
  | nil => exact run_delimiter hv hc r
  | cons d l =>
      have hmem : d ∈ s.lead depth := hlead ▸ List.mem_cons_self
      have hd : isSpace d := isSpace_of_mem_lead hmem
      exact run_delimiter hv (isDelimiter_of_isSpace hd) (l ++ c :: r)

/-- From a value that is expected to the value that is written, in front of any text. -/
def Comes [Stack] (s : Style) (v : Json) (scopes : List Scope) : Prop :=
  ∀ (mayClose : Bool) (depth : Nat) (tail : Text) (p : Nat), ∃ m q,
    run ⟨.value mayClose, scopes⟩ p (v.writeBefore s depth tail) = run ⟨m, scopes⟩ q tail ∧
      m.value? = some v

theorem comes_of_run [Stack] {v : Json} {t : Text}
    (ht : ∀ depth tail, v.writeBefore s depth tail = t ++ tail)
    (h : ∀ mayClose p, ∃ m : Mode, run ⟨.value mayClose, scopes⟩ p t = .ok ⟨m, scopes⟩ ∧
      m.value? = some v) : Comes s v scopes := by
  intro mayClose depth tail p
  obtain ⟨m, hm, hv⟩ := h mayClose p
  obtain ⟨q, hq⟩ := run_of_run_eq_ok hm tail
  exact ⟨m, q, by rw [ht, hq], hv⟩

section Items

variable {m : Mode} {v : Json} {depth outer : Nat} {tail : Text}

theorem run_writeItems [Stack] (done : List Json) (p : Nat) {r : List Json}
    (hr : ∀ w ∈ r, ∀ done, Comes s w (.items done :: scopes)) (hm : m.value? = some v) :
    ∃ q, run ⟨m, .items done :: scopes⟩ p
        (writeItems s depth (s.lead outer ++ .char ']' :: tail) r) =
      run ⟨.after (.arr (done.reverse ++ v :: r)), scopes⟩ q tail := by
  induction r generalizing m v done p with
  | nil =>
      obtain ⟨q, hq⟩ := run_lead_after (s := s) (.items done :: scopes) p hm outer
        (isDelimiter_of_mem (x := ']') (by decide)) tail
      refine ⟨q + 1, ?_⟩
      rw [writeItems, hq, run]
      simp [step, stepAfter, isSpace]
  | cons w r ih =>
      obtain ⟨hw, hr⟩ := List.forall_mem_cons.1 hr
      obtain ⟨q, hq⟩ := run_lead_value (s := s) (.items (v :: done) :: scopes) (p + 1) false depth
        (w.writeBefore s depth (writeItems s depth (s.lead outer ++ .char ']' :: tail) r))
      obtain ⟨m', q', hq', hm'⟩ := hw (v :: done) false depth _ q
      obtain ⟨q'', hq''⟩ := ih (v :: done) q' hr hm'
      refine ⟨q'', ?_⟩
      rw [writeItems, run_delimiter hm (isDelimiter_of_mem (by decide)), run]
      refine hq.trans (hq'.trans (hq''.trans ?_))
      simp

theorem comes_arr [Stack] {items : List Json} (hlimit : scopes.length < Stack.reading)
    (h : ∀ v ∈ items, ∀ done, Comes s v (.items done :: scopes)) : Comes s (.arr items) scopes := by
  intro mayClose depth tail p
  have hopen : step ⟨.value mayClose, scopes⟩ p (.char '[') =
      .ok ⟨.value true, .items [] :: scopes⟩ :=
    (step_opener mayClose scopes p .array).trans (openIn_eq_ok_iff.2 ⟨hlimit, rfl⟩)
  cases items with
  | nil =>
      refine ⟨.after (.arr []), p + 1 + 1, ?_, rfl⟩
      show run ⟨.value mayClose, scopes⟩ p (.char '[' :: .char ']' :: tail) = _
      rw [run, hopen]
      rfl
  | cons v r =>
      obtain ⟨hv, hr⟩ := List.forall_mem_cons.1 h
      obtain ⟨q, hq⟩ := run_lead_value (s := s) (.items [] :: scopes) (p + 1) true (depth + 1)
        (v.writeBefore s (depth + 1)
          (writeItems s (depth + 1) (s.lead depth ++ .char ']' :: tail) r))
      obtain ⟨m, q', hq', hm⟩ := hv [] true (depth + 1) _ q
      obtain ⟨q'', hq''⟩ := run_writeItems [] q' hr hm
      refine ⟨.after (.arr (v :: r)), q'', ?_, rfl⟩
      rw [writeBefore, run, hopen]
      exact hq.trans (hq'.trans hq'')

end Items

section Members

variable {m : Mode} {v : Json} {k : Text} {depth outer : Nat} {tail : Text}
  {done r : Table Text Json}

theorem run_colon [Stack] (done : Table Text Json) (k : Text) :
    run ⟨.colon done k, scopes⟩ p s.colon = .ok ⟨.value false, .member done k :: scopes⟩ := by
  rw [Style.colon]
  split <;> rfl

theorem run_member [Stack] (p depth : Nat) (mayClose : Bool) (hk : s.Keeps k)
    (hv : Comes s v (.member done k :: scopes)) (tail : Text) :
    ∃ m q, run ⟨.key done mayClose, scopes⟩ p
        (s.lead depth ++ writeString s.ascii k ++ s.colon ++ v.writeBefore s depth tail) =
      run ⟨m, .member done k :: scopes⟩ q tail ∧ m.value? = some v := by
  have hspace (p : Nat) (c : CodePoint) (hc : isSpace c) :
      step ⟨.key done mayClose, scopes⟩ p c = .ok ⟨.key done mayClose, scopes⟩ := by
    simp [step, hc]
  have hname : run ⟨.key done mayClose, scopes⟩ p
      (s.lead depth ++ writeString s.ascii k ++ s.colon) =
        .ok ⟨.value false, .member done k :: scopes⟩ :=
    run_append_eq_ok.2 ⟨_, run_append_eq_ok.2 ⟨_, run_spaces hspace fun _ => isSpace_of_mem_lead,
      run_writeString_key hk done mayClose⟩, run_colon done k⟩
  obtain ⟨q, hq⟩ := run_of_run_eq_ok hname (v.writeBefore s depth tail)
  obtain ⟨m, q', hq', hm⟩ := hv false depth tail q
  exact ⟨m, q', hq.trans hq', hm⟩

theorem run_writeMembers [Stack] (p : Nat) (hdistinct : Table.Distinct (done ++ (k, v) :: r))
    (hkeys : ∀ e ∈ r, s.Keeps e.1)
    (hr : ∀ e ∈ r, ∀ done, Comes s e.2 (.member done e.1 :: scopes)) (hm : m.value? = some v) :
    ∃ q, run ⟨m, .member done k :: scopes⟩ p
        (writeMembers s depth (s.lead outer ++ .char '\x7d' :: tail) r) =
      run ⟨.after (.obj (done ++ (k, v) :: r)), scopes⟩ q tail := by
  have hset : done.set k v = done ++ [(k, v)] :=
    Table.set_of_forall_ne
      (fun e he => (List.pairwise_append.1 hdistinct).2.2 e he _ List.mem_cons_self) v
  induction r generalizing m k v done p with
  | nil =>
      obtain ⟨q, hq⟩ := run_lead_after (s := s) (.member done k :: scopes) p hm
        outer (isDelimiter_of_mem (x := '\x7d') (by decide)) tail
      refine ⟨q + 1, ?_⟩
      rw [writeMembers, hq, run, ← hset]
      simp [step, stepAfter, isSpace]
  | cons e r ih =>
      obtain ⟨k', w⟩ := e
      obtain ⟨hk', hkeys⟩ := List.forall_mem_cons.1 hkeys
      obtain ⟨hw, hr⟩ := List.forall_mem_cons.1 hr
      have happend : done ++ (k, v) :: (k', w) :: r = done.set k v ++ (k', w) :: r := by
        rw [hset, List.append_assoc]
        rfl
      rw [happend] at hdistinct ⊢
      obtain ⟨m', q, hq, hm'⟩ := run_member (p + 1) depth false hk'
        (hw (done.set k v)) (writeMembers s depth (s.lead outer ++ .char '\x7d' :: tail) r)
      have hset' : (done.set k v).set k' w = done.set k v ++ [(k', w)] :=
        Table.set_of_forall_ne
          (fun e he => (List.pairwise_append.1 hdistinct).2.2 e he _ List.mem_cons_self) w
      obtain ⟨q', hq'⟩ := ih q hdistinct hkeys hr hm' hset'
      refine ⟨q', ?_⟩
      rw [writeMembers, run_delimiter hm (isDelimiter_of_mem (by decide)), run]
      exact hq.trans hq'

theorem comes_obj [Stack] {members : Table Text Json} (hlimit : scopes.length < Stack.reading)
    (hdistinct : members.Distinct) (hkeys : ∀ e ∈ members, s.Keeps e.1)
    (h : ∀ e ∈ members, ∀ done, Comes s e.2 (.member done e.1 :: scopes)) :
    Comes s (.obj members) scopes := by
  intro mayClose depth tail p
  have hopen : step ⟨.value mayClose, scopes⟩ p (.char '\x7b') = .ok ⟨.key [] true, scopes⟩ :=
    (step_opener mayClose scopes p .object).trans (openIn_eq_ok_iff.2 ⟨hlimit, rfl⟩)
  cases members with
  | nil =>
      refine ⟨.after (.obj []), p + 1 + 1, ?_, rfl⟩
      show run ⟨.value mayClose, scopes⟩ p (.char '\x7b' :: .char '\x7d' :: tail) = _
      rw [run, hopen]
      rfl
  | cons e r =>
      obtain ⟨k, v⟩ := e
      obtain ⟨hk, hkeys⟩ := List.forall_mem_cons.1 hkeys
      obtain ⟨hv, hr⟩ := List.forall_mem_cons.1 h
      obtain ⟨m, q, hq, hm⟩ := run_member (p + 1) (depth + 1) true hk (hv [])
        (writeMembers s (depth + 1) (s.lead depth ++ .char '\x7d' :: tail) r)
      have hdistinct : Table.Distinct ([] ++ (k, v) :: r) := hdistinct
      obtain ⟨q', hq'⟩ := run_writeMembers q hdistinct hkeys hr hm
      refine ⟨.after (.obj ((k, v) :: r)), q', ?_, rfl⟩
      rw [writeBefore, run, hopen]
      exact hq.trans hq'

end Members

theorem comes_of_readable [Stack] {room : Nat} {v : Json} (h : Readable s room v)
    (hroom : scopes.length + room ≤ Stack.reading) : Comes s v scopes := by
  induction h generalizing scopes with
  | null =>
      refine comes_of_run (fun _ _ => rfl) fun mayClose p => ⟨.after .null, ?_, rfl⟩
      cases mayClose <;> rfl
  | bool b =>
      refine comes_of_run (fun _ _ => rfl) fun mayClose p => ⟨.after (.bool b), ?_, rfl⟩
      cases mayClose <;> cases b <;> rfl
  | int h => exact comes_of_run (fun _ _ => rfl) fun mayClose p => run_ofInt h mayClose
  | float x => exact comes_of_run (fun _ _ => rfl) fun mayClose p => run_render x mayClose
  | str h =>
      exact comes_of_run (fun _ _ => rfl) fun mayClose p =>
        ⟨.after (.str _), run_writeString h mayClose, rfl⟩
  | arr _ ih =>
      exact comes_arr (by omega) fun v hv done => ih v hv (by rw [List.length_cons]; omega)
  | obj hdistinct hkeys _ ih =>
      exact comes_obj (by omega) hdistinct hkeys fun e he done =>
        ih e he (by rw [List.length_cons]; omega)

/-- What is written of a readable value is read as that value. -/
theorem read_write [Stack] {v : Json} (h : Readable s Stack.reading v) :
    read (v.write s) = .ok v := by
  have hcomes : Comes s v [] := comes_of_readable h (Nat.le_of_eq (Nat.zero_add _))
  obtain ⟨m, q, hq, hm⟩ := hcomes false 0 [] 0
  exact read_eq_ok_iff.2 ⟨⟨m, []⟩, hq, rfl, hm⟩

end JsonnetPreview.Json
