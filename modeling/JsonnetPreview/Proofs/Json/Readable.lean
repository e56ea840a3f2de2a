import JsonnetPreview.Proofs.Json.Reads
import JsonnetPreview.Proofs.Json.Strings
import JsonnetPreview.Proofs.Variables.Format

namespace JsonnetPreview.Json

/-- The values that come back from a style where `room` arrays and objects may still be opened. -/
inductive Readable (s : Style) : Nat → Json → Prop
  | null {room : Nat} : Readable s room .null
  | bool {room : Nat} (b : Bool) : Readable s room (.bool b)
  | int {room : Nat} {n : Int} (h : n.natAbs < 10 ^ Numeral.digitLimit) : Readable s room (.int n)
  | float {room : Nat} (x : Binary64) : Readable s room (.float x)
  | str {room : Nat} {t : Text} (h : s.Keeps t) : Readable s room (.str t)
  | arr {room : Nat} {items : List Json} (h : ∀ v ∈ items, Readable s room v) :
      Readable s (room + 1) (.arr items)
  | obj {room : Nat} {members : Table Text Json} (hdistinct : members.Distinct)
      (hkeys : ∀ e ∈ members, s.Keeps e.1) (h : ∀ e ∈ members, Readable s room e.2) :
      Readable s (room + 1) (.obj members)

variable {s : Style} {room : Nat}

/-- Members of an object that are read so far. -/
structure Members (s : Style) (room : Nat) (done : Table Text Json) : Prop where
  distinct : done.Distinct
  keys : ∀ e ∈ done, s.Keeps e.1
  values : ∀ e ∈ done, Readable s room e.2

namespace Members

theorem nil : Members s room [] := ⟨.nil, nofun, nofun⟩

theorem set {done : Table Text Json} (h : Members s room done) {key : Text} {v : Json}
    (hkey : s.Keeps key) (hv : Readable s room v) : Members s room (done.set key v) where
  distinct := Table.distinct_set h.distinct key v
  keys e he := by
    rcases Table.mem_of_mem_set he with he | rfl
    · exact h.keys e he
    · exact hkey
  values e he := by
    rcases Table.mem_of_mem_set he with he | rfl
    · exact h.values e he
    · exact hv

theorem setAll {done : Table Text Json} (h : Members s room done) {members : List (Text × Json)}
    (hkeys : ∀ e ∈ members, s.Keeps e.1) (hvalues : ∀ e ∈ members, Readable s room e.2) :
    Members s room (done.setAll members) := by
  induction members generalizing done with
  | nil => exact h
  | cons e r ih =>
      obtain ⟨hkey, hkeys⟩ := List.forall_mem_cons.1 hkeys
      obtain ⟨hvalue, hvalues⟩ := List.forall_mem_cons.1 hvalues
      exact ih (h.set hkey hvalue) hkeys hvalues

theorem obj {done : Table Text Json} (h : Members s room done) :
    Readable s (room + 1) (.obj done) :=
  .obj h.distinct h.keys h.values

end Members

theorem Readable.members {members : Table Text Json} (h : Readable s (room + 1) (.obj members)) :
    Members s room members := by
  cases h with
  | obj hdistinct hkeys h => exact ⟨hdistinct, hkeys, h⟩

theorem Readable.mono {v : Json} {n : Nat} (h : Readable s room v) (hn : room ≤ n) :
    Readable s n v := by
  induction h generalizing n with
  | null => exact .null
  | bool b => exact .bool b
  | int h => exact .int h
  | float x => exact .float x
  | str h => exact .str h
  | arr h ih =>
      obtain ⟨k, rfl⟩ := Nat.exists_eq_add_of_le' (Nat.le_of_add_left_le hn)
      exact .arr fun v hv => ih v hv (Nat.le_of_succ_le_succ hn)
  | obj hdistinct hkeys h ih =>
      obtain ⟨k, rfl⟩ := Nat.exists_eq_add_of_le' (Nat.le_of_add_left_le hn)
      exact .obj hdistinct hkeys fun e he => ih e he (Nat.le_of_succ_le_succ hn)

theorem Members.mono {done : Table Text Json} {n : Nat} (h : Members s room done)
    (hn : room ≤ n) : Members s n done :=
  ⟨h.distinct, h.keys, fun e he => (h.values e he).mono hn⟩

theorem Readable.distinct {members : Table Text Json} (h : Readable s room (.obj members)) :
    members.Distinct := by
  cases h with
  | obj hdistinct => exact hdistinct

def Scope.Readable (s : Style) (room : Nat) : Scope → Prop
  | .items done => ∀ v ∈ done, Json.Readable s room v
  | .member done key => Members s room done ∧ s.Keeps key

/-- What is open, with the room that is left in it. -/
inductive ScopesReadable [Stack] (s : Style) : Nat → List Scope → Prop
  | nil : ScopesReadable s Stack.reading []
  | cons {room : Nat} {scope : Scope} {rest : List Scope} (hscope : scope.Readable s room)
      (hrest : ScopesReadable s (room + 1) rest) : ScopesReadable s room (scope :: rest)

theorem ScopesReadable.room_add [Stack] {scopes : List Scope} (h : ScopesReadable s room scopes) :
    room + scopes.length = Stack.reading := by
  induction h with
  | nil => rfl
  | cons _ _ ih =>
      rw [List.length_cons]
      omega

def OpenMembers (s : Style) (room : Nat) (done : Table Text Json) : Prop :=
  ∃ inner, room = inner + 1 ∧ Members s inner done

def Role.Readable (s : Style) (room : Nat) : Role → Prop
  | .value => True
  | .key done => OpenMembers s room done

def BodyReadable (s : Style) (body : List Unit16) : Prop :=
  s.ascii = true → ∀ c, .plain c ∈ body → ∃ x : Char, c = .char x

def Mode.Readable (s : Style) (room : Nat) : Mode → Prop
  | .value _ => True
  | .key done _ => OpenMembers s room done
  | .colon done name => OpenMembers s room done ∧ s.Keeps name
  | .string role _ body => role.Readable s room ∧ BodyReadable s body
  | .escape role _ body => role.Readable s room ∧ BodyReadable s body
  | .hex role _ body _ => role.Readable s room ∧ BodyReadable s body
  | .word _ v _ => Json.Readable s room v
  | .minus _ => True
  | .number n _ => ∀ d ∈ n.whole, d < 10
  | .after v => Json.Readable s room v

def State.Readable [Stack] (s : Style) (st : State) : Prop :=
  ∃ room, ScopesReadable s room st.scopes ∧ st.mode.Readable s room

section Step

variable {p : Nat} {c : CodePoint} {st st' : State} {scopes : List Scope} {v : Json}

theorem digit?_lt {d : Nat} (h : digit? c = some d) : d < 10 := by
  cases c with
  | surrogate i => cases h
  | char x =>
      simp only [digit?, Option.ite_none_right_eq_some, Char.isDigit, Bool.and_eq_true,
        decide_eq_true_eq, UInt32.le_iff_toNat_le, Option.some.injEq] at h
      obtain ⟨⟨hlow, hhigh⟩, rfl⟩ := h
      have hx : x.toNat ≤ 57 := hhigh
      omega

theorem readable_of_number {n : NumberText} (hn : ∀ d ∈ n.whole, d < 10) (h : n.value = .ok v) :
    Readable s room v := by
  have hvalue : n.value? = .ok v := by
    unfold NumberText.value at h
    split at h
    next w hw => rw [hw, Except.ok.inj h]
    next => cases h
  unfold NumberText.value? at hvalue
  split at hvalue
  next =>
    rw [Numeral.value?] at hvalue
    split at hvalue
    next => cases hvalue
    next hlength =>
      have hlt : Numeral.value n.whole.reverse < 10 ^ Numeral.digitLimit :=
        Nat.lt_of_lt_of_le (Numeral.value_lt (by simpa using hn))
          (Nat.pow_le_pow_right (by decide) (Nat.not_lt.1 hlength))
      cases hvalue
      refine .int ?_
      split <;> simpa using hlt
  next =>
    split at hvalue
    all_goals
      cases hvalue
      exact .float _

theorem readable_stepAfter [Stack] (hscopes : ScopesReadable s room scopes) (hv : Readable s room v)
    (h : stepAfter v scopes p c = .ok st') : st'.Readable s := by
  unfold stepAfter at h
  split at h
  next =>
    cases h
    exact ⟨room, hscopes, hv⟩
  next =>
    split at h
    case h_5 => cases h
    all_goals
      cases h
      obtain _ | ⟨hscope, hrest⟩ := hscopes
    · exact ⟨room, .cons (List.forall_mem_cons.2 ⟨hv, hscope⟩) hrest, trivial⟩
    · refine ⟨room + 1, hrest, Readable.arr fun w hw => ?_⟩
      exact List.forall_mem_cons.2 ⟨hv, hscope⟩ w (List.mem_reverse.1 hw)
    · exact ⟨room + 1, hrest, room, rfl, hscope.1.set hscope.2 hv⟩
    · exact ⟨room + 1, hrest, (hscope.1.set hscope.2 hv).obj⟩

theorem readable_endNumber [Stack] {n : NumberText} (hscopes : ScopesReadable s room scopes)
    (hn : ∀ d ∈ n.whole, d < 10) (h : endNumber n scopes p c = .ok st') : st'.Readable s := by
  obtain ⟨v, hv, h⟩ := endNumber_eq_ok h
  exact readable_stepAfter hscopes (readable_of_number hn hv) h

theorem readable_stepNumber [Stack] {n : NumberText} {phase : NumberPhase}
    (hscopes : ScopesReadable s room scopes) (hn : ∀ d ∈ n.whole, d < 10)
    (h : stepNumber n phase scopes p c = .ok st') : st'.Readable s := by
  cases phase with
  | zero | whole | fraction =>
      simp only [stepNumber] at h
      repeat' split at h
      all_goals first | exact readable_endNumber hscopes hn h | cases h
      all_goals exact ⟨room, hscopes, hn⟩
  | exponent => exact readable_endNumber hscopes hn h
  | exponentMark mark =>
      simp only [stepNumber] at h
      repeat' split at h
      all_goals first | exact absurd h giveUpNumber_ne_ok | cases h
      all_goals exact ⟨room, hscopes, hn⟩
  | point mark | exponentSign mark => exact absurd h giveUpNumber_ne_ok

theorem readable_stepDigit [Stack] {n : NumberText} {phase : NumberPhase} {d : Nat} (hd : d < 10)
    (hscopes : ScopesReadable s room scopes) (hn : ∀ d ∈ n.whole, d < 10)
    (h : stepDigit n phase scopes p c d = .ok st') : st'.Readable s := by
  cases phase with
  | zero => exact readable_endNumber hscopes hn h
  | whole =>
      cases h
      exact ⟨room, hscopes, List.forall_mem_cons.2 ⟨hd, hn⟩⟩
  | point | fraction | exponentMark | exponentSign | exponent =>
      cases h
      exact ⟨room, hscopes, hn⟩

theorem bodyReadable_nil : BodyReadable s [] := fun _ _ hc => absurd hc List.not_mem_nil

theorem bodyReadable_cons {body : List Unit16} (h : BodyReadable s body) {u : Unit16}
    (hu : s.ascii = true → ∀ c, u = .plain c → ∃ x : Char, c = .char x) :
    BodyReadable s (u :: body) := fun hs c hc =>
  (List.mem_cons.1 hc).elim (fun hc => hu hs c hc.symm) (h hs c)

theorem keeps_assemble {body : List Unit16} (h : BodyReadable s body) :
    s.Keeps (assemble body.reverse) := fun hs =>
  unpaired_assemble fun c hc => h hs c (List.mem_reverse.1 hc)

theorem readable_beginValue [Stack] (hscopes : ScopesReadable s room scopes)
    (h : beginValue scopes p c = .ok st') : st'.Readable s := by
  have hroom := hscopes.room_add
  unfold beginValue at h
  split at h
  case h_2 =>
    obtain ⟨hlimit, rfl⟩ := openIn_eq_ok_iff.1 h
    obtain ⟨inner, rfl⟩ := Nat.exists_eq_add_of_lt (show 0 < room by omega)
    exact ⟨_, hscopes, 0 + inner, rfl, .nil⟩
  case h_3 =>
    obtain ⟨hlimit, rfl⟩ := openIn_eq_ok_iff.1 h
    obtain ⟨inner, rfl⟩ := Nat.exists_eq_add_of_lt (show 0 < room by omega)
    exact ⟨0 + inner, .cons (List.forall_mem_nil _) hscopes, trivial⟩
  case h_10 =>
    split at h
    case h_3 => cases h
    case h_1 =>
      cases h
      exact ⟨room, hscopes, List.forall_mem_singleton.2 (by decide)⟩
    case h_2 hd =>
      cases h
      exact ⟨room, hscopes, List.forall_mem_singleton.2 (digit?_lt hd)⟩
  case h_1 =>
    cases h
    exact ⟨room, hscopes, trivial, bodyReadable_nil⟩
  case h_4 =>
    cases h
    exact ⟨room, hscopes, trivial⟩
  case h_5 =>
    cases h
    exact ⟨room, hscopes, Readable.null⟩
  case h_6 | h_7 =>
    cases h
    exact ⟨room, hscopes, Readable.bool _⟩
  case h_8 | h_9 =>
    cases h
    exact ⟨room, hscopes, Readable.float _⟩

section Modes

variable [Stack] {role : Role} {start : Nat} {body : List Unit16}

theorem readable_stepValue {mayClose : Bool} (hscopes : ScopesReadable s room scopes)
    (h : step ⟨.value mayClose, scopes⟩ p c = .ok st') : st'.Readable s := by
  simp only [step] at h
  split at h
  next =>
    cases h
    exact ⟨room, hscopes, trivial⟩
  next =>
    split at h
    next =>
      cases h
      obtain _ | ⟨hscope, hrest⟩ := hscopes
      exact ⟨room + 1, hrest, Readable.arr (List.forall_mem_nil _)⟩
    next => exact readable_beginValue hscopes h

theorem readable_stepKey {done : Table Text Json} {mayClose : Bool}
    (hscopes : ScopesReadable s room scopes) (hdone : OpenMembers s room done)
    (h : step ⟨.key done mayClose, scopes⟩ p c = .ok st') : st'.Readable s := by
  simp only [step] at h
  repeat' split at h
  all_goals cases h
  · exact ⟨room, hscopes, hdone⟩
  · exact ⟨room, hscopes, hdone, bodyReadable_nil⟩
  · obtain ⟨inner, rfl, -⟩ := hdone
    exact ⟨inner + 1, hscopes, Members.nil.obj⟩

theorem readable_stepColon {done : Table Text Json} {key : Text}
    (hscopes : ScopesReadable s room scopes) (hdone : OpenMembers s room done)
    (hkey : s.Keeps key) (h : step ⟨.colon done key, scopes⟩ p c = .ok st') : st'.Readable s := by
  simp only [step] at h
  repeat' split at h
  all_goals cases h
  · exact ⟨room, hscopes, hdone, hkey⟩
  · obtain ⟨inner, rfl, hmembers⟩ := hdone
    exact ⟨inner, .cons ⟨hmembers, hkey⟩ hscopes, trivial⟩

theorem readable_stepString (hscopes : ScopesReadable s room scopes)
    (hrole : role.Readable s room) (hbody : BodyReadable s body)
    (hc : s.ascii = true → ∃ x : Char, c = .char x)
    (h : step ⟨.string role start body, scopes⟩ p c = .ok st') : st'.Readable s := by
  simp only [step] at h
  repeat' split at h
  all_goals cases h
  · cases role with
    | value => exact ⟨room, hscopes, Readable.str (keeps_assemble hbody)⟩
    | key done => exact ⟨room, hscopes, hrole, keeps_assemble hbody⟩
  · exact ⟨room, hscopes, hrole, hbody⟩
  · refine ⟨room, hscopes, hrole, bodyReadable_cons hbody fun hs d hd => ?_⟩
    cases hd
    exact hc hs

theorem readable_stepEscape (hscopes : ScopesReadable s room scopes)
    (hrole : role.Readable s room) (hbody : BodyReadable s body)
    (h : step ⟨.escape role start body, scopes⟩ p c = .ok st') : st'.Readable s := by
  simp only [step] at h
  repeat' split at h
  all_goals cases h
  · exact ⟨room, hscopes, hrole, hbody⟩
  · refine ⟨room, hscopes, hrole, bodyReadable_cons hbody fun _ d hd => ?_⟩
    cases hd
    exact ⟨_, rfl⟩

theorem readable_stepHex {digits : List Nat} (hscopes : ScopesReadable s room scopes)
    (hrole : role.Readable s room) (hbody : BodyReadable s body)
    (h : step ⟨.hex role start body digits, scopes⟩ p c = .ok st') : st'.Readable s := by
  simp only [step] at h
  repeat' split at h
  all_goals cases h
  · refine ⟨room, hscopes, hrole, bodyReadable_cons hbody fun _ _ hd => ?_⟩
    cases hd
  · exact ⟨room, hscopes, hrole, hbody⟩

theorem readable_stepWord {rest : List Char} (hscopes : ScopesReadable s room scopes)
    (hv : Readable s room v) (h : step ⟨.word start v rest, scopes⟩ p c = .ok st') :
    st'.Readable s := by
  simp only [step] at h
  repeat' split at h
  next => exact readable_stepAfter hscopes hv h
  all_goals cases h
  all_goals exact ⟨room, hscopes, hv⟩

theorem readable_stepMinus (hscopes : ScopesReadable s room scopes)
    (h : step ⟨.minus start, scopes⟩ p c = .ok st') : st'.Readable s := by
  simp only [step] at h
  repeat' split at h
  all_goals cases h
  · exact ⟨room, hscopes, List.forall_mem_singleton.2 (by decide)⟩
  next hd => exact ⟨room, hscopes, List.forall_mem_singleton.2 (digit?_lt hd)⟩
  · exact ⟨room, hscopes, Readable.float _⟩

theorem readable_step (hst : st.Readable s) (hc : s.ascii = true → ∃ x : Char, c = .char x)
    (h : step st p c = .ok st') : st'.Readable s := by
  obtain ⟨mode, scopes⟩ := st
  obtain ⟨room, hscopes, hmode⟩ := hst
  cases mode with
  | value mayClose => exact readable_stepValue hscopes h
  | key done mayClose => exact readable_stepKey hscopes hmode h
  | colon done key => exact readable_stepColon hscopes hmode.1 hmode.2 h
  | string role start body => exact readable_stepString hscopes hmode.1 hmode.2 hc h
  | escape role start body => exact readable_stepEscape hscopes hmode.1 hmode.2 h
  | hex role start body digits => exact readable_stepHex hscopes hmode.1 hmode.2 h
  | word start v rest => exact readable_stepWord hscopes hmode h
  | minus start => exact readable_stepMinus hscopes h
  | number n phase =>
      simp only [step] at h
      split at h
      next hd => exact readable_stepDigit (digit?_lt hd) hscopes hmode h
      next => exact readable_stepNumber hscopes hmode h
  | after v => exact readable_stepAfter hscopes hmode h

end Modes

theorem readable_run [Stack] {t : Text} (hst : st.Readable s)
    (ht : s.ascii = true → t.IsScalar) (h : run st p t = .ok st') : st'.Readable s := by
  induction t generalizing st p with
  | nil =>
      cases h
      exact hst
  | cons c r ih =>
      obtain ⟨m, hm, h⟩ := run_cons_eq_ok.1 h
      exact ih (readable_step hst (fun hs => ht hs c List.mem_cons_self) hm)
        (fun hs d hd => ht hs d (List.mem_cons_of_mem c hd)) h

end Step

theorem readable_of_value? {mode : Mode} {v : Json} (hmode : mode.Readable s room)
    (hv : mode.value? = some v) : Readable s room v := by
  cases mode with
  | value | key | colon | string | escape | hex | minus => cases hv
  | word start w rest =>
      cases rest with
      | nil =>
          cases hv
          exact hmode
      | cons r rest => cases hv
  | number n phase =>
      simp only [Mode.value?, Option.ite_none_right_eq_some] at hv
      exact readable_of_number hmode (NumberText.value_eq_ok.2 hv.2)
  | after w =>
      cases hv
      exact hmode

theorem readable_of_holds [Stack] {st : State} {v : Json} (hst : st.Readable s) (hv : st.Holds v) :
    Readable s Stack.reading v := by
  obtain ⟨hnil, hv⟩ := hv
  obtain ⟨room, hscopes, hmode⟩ := hst
  rw [hnil] at hscopes
  cases hscopes
  exact readable_of_value? hmode hv

/-- Where all characters beyond ASCII are to be escaped, the text may not have halves of surrogate
pairs in it. -/
theorem readable_of_read [Stack] {t : Text} {v : Json}
    (ht : s.ascii = true → t.IsScalar) (h : read t = .ok v) : Readable s Stack.reading v := by
  obtain ⟨st, hst, hv⟩ := read_eq_ok_iff.1 h
  have hstart : start.Readable s := ⟨Stack.reading, .nil, trivial⟩
  exact readable_of_holds (readable_run hstart ht hst) hv

end JsonnetPreview.Json
