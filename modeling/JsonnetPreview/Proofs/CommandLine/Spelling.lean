import JsonnetPreview.CommandLine.Arguments
import JsonnetPreview.Config.VariableTable
import Mathlib.Data.List.Induction

namespace JsonnetPreview.CommandLine

/-- What an option asks for. -/
inductive Choice where
  | format (f : OutputFormat)
  | library (path : Text)
  | external (name value : Text)
  | stream
  | check
  | verbose
  deriving DecidableEq, Repr

namespace Choice

def switch : Choice → Switch
  | format _ => .format
  | library _ => .libraryPath
  | external _ _ => .externalVariable
  | stream => .stream
  | check => .check
  | verbose => .verbose

def text? : Choice → Option Text
  | format f => some f.name
  | library path => some path
  | external name value => some (Variables.assignment name value)
  | stream | check | verbose => none

def setting (o : Choice) : Setting := (o.switch, (o.text?.map Value.ofText).getD .empty)

def on (a : Arguments) : Choice → Arguments
  | format f => { a with format := some (.text f.name) }
  | library path => { a with libraryPaths := a.libraryPaths ++ [Value.ofText path] }
  | external name value =>
    { a with externals := a.externals ++ [.text (Variables.assignment name value)] }
  | stream => { a with stream := true }
  | check => { a with check := true }
  | verbose => { a with verbose := true }

def library? : Choice → Option Text
  | library path => some path
  | _ => none

def external? : Choice → Option (Text × Text)
  | external name value => some (name, value)
  | _ => none

theorem assignment_ne_dashes (name value : Text) : Variables.assignment name value ≠ Value.dashes := by
  intro h
  have hmem : .char '=' ∈ Variables.assignment name value :=
    List.mem_append_right _ List.mem_cons_self
  rw [h] at hmem
  exact absurd hmem (by decide)

theorem apply_setting (a : Arguments) (o : Choice) : a.apply o.setting = .ok (o.on a) := by
  cases o with
  | format f => cases f <;> rfl
  | library path | stream | check | verbose => rfl
  | external name value =>
      show Except.ok { a with externals := a.externals ++ [Value.ofText _] } = _
      rw [Value.ofText_of_ne (assignment_ne_dashes name value)]
      rfl

theorem takesValue_switch (o : Choice) : o.switch.takesValue = o.text?.isSome := by cases o <;> rfl

end Choice

/-- The name of an option, which may be cut short as long as it can be told from the others. -/
structure Switch.Names (s : Switch) (t : Text) : Prop where
  equals_not_mem : .char '=' ∉ t
  name : Switch.ofName? t = some s ∨ (Switch.ofName? t = none ∧ Switch.beginningWith t = [s])

/-- A word for an option. -/
inductive Switch.Spelled (s : Switch) : Text → Prop
  | letter (c : Char) (h : s.letter? = some c) : Spelled s [.char '-', .char c]
  | name (t : Text) (h : s.Names t) : Spelled s (.char '-' :: .char '-' :: t)

def IsOperand (t : Text) : Prop := Word.ofText t = .ok (.operand t)

/-- The words that an option is spelled with. Its value is the next word, or it stands in the same
word. -/
inductive Choice.Spelled (o : Choice) : List Text → Prop
  | flag (w : Text) (h : o.text? = none) (hw : o.switch.Spelled w) : Spelled o [w]
  | apart (w t : Text) (h : o.text? = some t) (hw : o.switch.Spelled w) (ht : IsOperand t) :
      Spelled o [w, t]
  | glued (c : Char) (t : Text) (h : o.text? = some t) (hc : o.switch.letter? = some c)
      (hne : t ≠ []) (hequals : t.head? ≠ some (.char '=')) :
      Spelled o [.char '-' :: .char c :: t]
  | letterEquals (c : Char) (t : Text) (h : o.text? = some t) (hc : o.switch.letter? = some c) :
      Spelled o [.char '-' :: .char c :: .char '=' :: t]
  | nameEquals (name t : Text) (h : o.text? = some t) (hname : o.switch.Names name) :
      Spelled o [.char '-' :: .char '-' :: (name ++ .char '=' :: t)]

inductive SpelledAll : List Choice → List Text → Prop
  | nil : SpelledAll [] []
  | cons {o : Choice} {os : List Choice} {ts rest : List Text} (h : o.Spelled ts)
      (hrest : SpelledAll os rest) : SpelledAll (o :: os) (ts ++ rest)

section Words

variable {s : Switch} {c : Char}

theorem ofText_letter (h : s.letter? = some c) (rest : Text) :
    Word.ofText (.char '-' :: .char c :: rest) = .ok (.letter s (Word.restOf rest)) := by
  have hletter : Switch.ofLetter? (.char c) = some s := Switch.ofLetter?_of_letter? h
  have hc : c ≠ '-' := by
    rintro rfl
    cases s <;> cases h
  unfold Word.ofText
  split
  next heq =>
    cases heq
    exact absurd rfl hc
  next heq =>
    cases heq
    exact absurd rfl hc
  next heq =>
    cases heq
    rw [hletter]
  next hnot => exact absurd rfl (hnot _ _)

theorem ofText_body {body : Text} (h : body ≠ []) :
    Word.ofText (.char '-' :: .char '-' :: body) =
      Word.ofBody (.char '-' :: .char '-' :: body) body := by
  obtain ⟨c, rest, rfl⟩ := List.exists_cons_of_ne_nil h
  rfl

theorem breakAt_of_not_mem {t : Text} (h : .char '=' ∉ t) :
    Text.breakAt (· = .char '=') t = (t, none) := by
  induction t with
  | nil => rfl
  | cons c t ih =>
      obtain ⟨hc, ht⟩ := not_or.1 (mt List.mem_cons.2 h)
      have hne : ¬decide (c = .char '=') = true := by simpa using Ne.symm hc
      rw [Text.breakAt, if_neg hne, ih ht]

namespace Switch.Names

variable {t : Text} (h : s.Names t)

include h

theorem ne_nil : t ≠ [] := by
  rintro rfl
  rcases h.name with h | ⟨-, h⟩ <;> cases s <;> exact absurd h (by decide)

theorem ofBody_eq {body : Text} {value : Option Text}
    (hbreak : Text.breakAt (· = .char '=') body = (t, value)) (word : Text) :
    Word.ofBody word body = .ok (.name s value) := by
  rw [Word.ofBody, hbreak]
  rcases h.name with hname | ⟨hnone, hbegin⟩
  · simp only [hname]
  · simp only [hnone, hbegin]

theorem ofText_name : Word.ofText (.char '-' :: .char '-' :: t) = .ok (.name s none) := by
  rw [ofText_body h.ne_nil]
  exact h.ofBody_eq (breakAt_of_not_mem h.equals_not_mem) _

theorem ofText_nameEquals (value : Text) :
    Word.ofText (.char '-' :: .char '-' :: (t ++ .char '=' :: value)) =
      .ok (.name s (some value)) := by
  rw [ofText_body (List.append_ne_nil_of_left_ne_nil h.ne_nil _)]
  refine h.ofBody_eq (Text.breakAt_append_cons (fun c hc => ?_) (by decide) value) _
  exact decide_eq_false fun heq : c = .char '=' => h.equals_not_mem (heq ▸ hc)

end Switch.Names

theorem ofText_of_spelled {w : Text} (h : s.Spelled w) :
    Word.ofText w = .ok (.letter s none) ∨ Word.ofText w = .ok (.name s none) := by
  cases h with
  | letter c h => exact .inl (ofText_letter h [])
  | name t h => exact .inr h.ofText_name

theorem ofTexts_cons {t : Text} {w : Word} (h : Word.ofText t = .ok w) (hw : w ≠ .separator)
    (rest : List Text) : Word.ofTexts (t :: rest) = (Word.ofTexts rest).map (w :: ·) := by
  cases w with
  | separator => exact absurd rfl hw
  | operand | letter | name | unknown => simp only [Word.ofTexts, h]

theorem ofTexts_operands {files : List Text} (h : ∀ file ∈ files, IsOperand file)
    (rest : List Text) :
    Word.ofTexts (files ++ rest) = (Word.ofTexts rest).map (files.map Word.operand ++ ·) := by
  induction files with
  | nil => cases hrest : Word.ofTexts rest <;> simp [hrest, Except.map]
  | cons file files ih =>
      obtain ⟨hfile, hfiles⟩ := List.forall_mem_cons.1 h
      rw [List.cons_append, ofTexts_cons hfile nofun, ih hfiles]
      cases Word.ofTexts rest <;> rfl

end Words

namespace Progress

variable {p : Progress} {o : Choice}

@[simp]
theorem leaveGroup_arguments (p : Progress) : p.leaveGroup.arguments = p.arguments := by
  rw [leaveGroup]
  split <;> rfl

@[simp]
theorem leaveGroup_unrecognized (p : Progress) : p.leaveGroup.unrecognized = p.unrecognized := by
  rw [leaveGroup]
  split <;> rfl

def choose (p : Progress) (o : Choice) : Progress :=
  { p.leaveGroup with arguments := o.on p.arguments, pending := none }

theorem applyAll_setting (p : Progress) (o : Choice) :
    p.applyAll [o.setting] = .ok { p with arguments := o.on p.arguments, pending := none } := by
  rw [applyAll, List.foldlM_cons, Choice.apply_setting]
  rfl

theorem takeOption_setting (p : Progress) (o : Choice) :
    p.takeOption (.ok { settings := [o.setting] }) = .ok (p.choose o) := by
  have h := applyAll_setting p.leaveGroup o
  rw [leaveGroup_arguments] at h
  exact h

theorem take_letter (hp : p.pending = none) (s : Switch) (rest : Option Text) :
    p.take (.letter s rest) = p.takeOption (Chain.ofLetters s rest) := by
  simp only [take, hp]

theorem take_name (hp : p.pending = none) (s : Switch) (value : Option Text) :
    p.take (.name s value) = p.takeOption (Chain.ofName s value) := by
  simp only [take, hp]

theorem take_apart (p : Progress) {t : Text} (ho : o.text? = some t) :
    (p.takeOption (.ok (Chain.alone o.switch)) >>= (take · (.operand t))) = .ok (p.choose o) := by
  have hsetting : o.setting = (o.switch, Value.ofText t) := by rw [Choice.setting, ho]; rfl
  have htakes : o.switch.takesValue = true := by rw [Choice.takesValue_switch, ho]; rfl
  have halone : Chain.alone o.switch = { pending := some o.switch } := if_pos htakes
  have h := applyAll_setting { p.leaveGroup with pending := some ([], o.switch) } o
  rw [halone]
  show applyAll { p.leaveGroup with pending := some ([], o.switch) }
    ([] ++ [(o.switch, Value.ofText t)]) = _
  rw [List.nil_append, ← hsetting, h, leaveGroup_arguments]
  rfl

end Progress

namespace Choice

variable {o : Choice} {t : Text}

theorem alone_of_flag (ho : o.text? = none) :
    Chain.alone o.switch = { settings := [o.setting] } := by
  have htakes : ¬o.switch.takesValue = true := by simp [takesValue_switch, ho]
  rw [Chain.alone, if_neg htakes, setting, ho]
  rfl

theorem withText_of_text (ho : o.text? = some t) :
    Chain.withText o.switch t = .ok { settings := [o.setting] } := by
  have htakes : o.switch.takesValue = true := by simp [takesValue_switch, ho]
  rw [Chain.withText, if_pos htakes, setting, ho]
  rfl

theorem withRest_of_text (ho : o.text? = some t) :
    Chain.withRest o.switch t = .ok { settings := [o.setting] } := by
  have htakes : o.switch.takesValue = true := by simp [takesValue_switch, ho]
  rw [← withText_of_text ho]
  cases t with
  | nil => rfl
  | cons c rest => rw [Chain.withRest, if_pos htakes]

/-- Some words are read as the option, whatever stands before and behind them. -/
def Reads (o : Choice) (ts : List Text) : Prop :=
  ∃ ws, (∀ rest, Word.ofTexts (ts ++ rest) = (Word.ofTexts rest).map (ws ++ ·)) ∧
    ∀ p : Progress, p.pending = none → ws.foldlM Progress.take p = .ok (p.choose o)

theorem reads_word {w : Word} (h : Word.ofText t = .ok w) (hw : w ≠ .separator)
    (htake : ∀ p : Progress, p.pending = none → p.take w = .ok (p.choose o)) : o.Reads [t] := by
  refine ⟨[w], fun rest => ofTexts_cons h hw rest, fun p hp => ?_⟩
  rw [List.foldlM_cons, htake p hp]
  rfl

theorem reads_words {t' : Text} {w w' : Word} (h : Word.ofText t = .ok w) (hw : w ≠ .separator)
    (h' : Word.ofText t' = .ok w') (hw' : w' ≠ .separator)
    (htake : ∀ p : Progress, p.pending = none →
      (p.take w >>= (Progress.take · w')) = .ok (p.choose o)) : o.Reads [t, t'] := by
  refine ⟨[w, w'], fun rest => ?_, fun p hp => ?_⟩
  · rw [List.cons_append, List.singleton_append, ofTexts_cons h hw, ofTexts_cons h' hw']
    cases Word.ofTexts rest <;> rfl
  · have hrun := htake p hp
    rw [List.foldlM_cons]
    cases htake₁ : p.take w with
    | error halt =>
        rw [htake₁] at hrun
        cases hrun
    | ok q =>
        rw [htake₁] at hrun
        show [w'].foldlM Progress.take q = _
        rw [List.foldlM_cons, show q.take w' = .ok (p.choose o) from hrun]
        rfl

theorem restOf_of_head? (hne : t ≠ []) (hequals : t.head? ≠ some (.char '=')) :
    Word.restOf t = some t := by
  obtain ⟨c, rest, rfl⟩ := List.exists_cons_of_ne_nil hne
  rw [Word.restOf, if_neg (by simpa using hequals)]

theorem Spelled.reads {ts : List Text} (h : o.Spelled ts) : o.Reads ts := by
  cases h with
  | flag w ho hw =>
      rcases ofText_of_spelled hw with hword | hword
      · refine reads_word hword nofun fun p hp => ?_
        rw [Progress.take_letter hp, Chain.ofLetters, alone_of_flag ho, Progress.takeOption_setting]
      · refine reads_word hword nofun fun p hp => ?_
        rw [Progress.take_name hp, Chain.ofName, alone_of_flag ho, Progress.takeOption_setting]
  | apart w t ho hw ht =>
      rcases ofText_of_spelled hw with hword | hword
      · refine reads_words hword nofun ht nofun fun p hp => ?_
        rw [Progress.take_letter hp]
        exact p.take_apart ho
      · refine reads_words hword nofun ht nofun fun p hp => ?_
        rw [Progress.take_name hp]
        exact p.take_apart ho
  | glued c t ho hc hne hequals =>
      refine reads_word (ofText_letter hc t) nofun fun p hp => ?_
      rw [restOf_of_head? hne hequals, Progress.take_letter hp, Chain.ofLetters, withRest_of_text ho,
        Progress.takeOption_setting]
  | letterEquals c t ho hc =>
      refine reads_word (ofText_letter hc (.char '=' :: t)) nofun fun p hp => ?_
      rw [Word.restOf, if_pos rfl, Progress.take_letter hp, Chain.ofLetters, withRest_of_text ho,
        Progress.takeOption_setting]
  | nameEquals name t ho hname =>
      refine reads_word (hname.ofText_nameEquals t) nofun fun p hp => ?_
      rw [Progress.take_name hp, Chain.ofName, withText_of_text ho, Progress.takeOption_setting]

end Choice

def Progress.chooseAll (p : Progress) (os : List Choice) : Progress := os.foldl choose p

theorem SpelledAll.reads {os : List Choice} {ts : List Text} (h : SpelledAll os ts) :
    ∃ ws, (∀ rest, Word.ofTexts (ts ++ rest) = (Word.ofTexts rest).map (ws ++ ·)) ∧
      ∀ p : Progress, p.pending = none → ws.foldlM Progress.take p = .ok (p.chooseAll os) := by
  induction h with
  | nil =>
      refine ⟨[], fun rest => ?_, fun p _ => rfl⟩
      cases hrest : Word.ofTexts rest <;> simp [hrest, Except.map]
  | cons ho _ ih =>
      obtain ⟨ws, hws, htake⟩ := ho.reads
      obtain ⟨ws', hws', htake'⟩ := ih
      refine ⟨ws ++ ws', fun rest => ?_, fun p hp => ?_⟩
      · rw [List.append_assoc, hws, hws']
        cases Word.ofTexts rest <;> simp [Except.map]
      · rw [List.foldlM_append, htake p hp]
        exact htake' (p.choose _) rfl

section ChooseAll

variable (p : Progress) (os : List Choice)

theorem chooseAll_arguments : (p.chooseAll os).arguments = os.foldl Choice.on p.arguments := by
  induction os generalizing p with
  | nil => rfl
  | cons o os ih => exact ih (p.choose o)

theorem chooseAll_unrecognized : (p.chooseAll os).unrecognized = p.unrecognized := by
  induction os generalizing p with
  | nil => rfl
  | cons o os ih => exact (ih (p.choose o)).trans p.leaveGroup_unrecognized

theorem chooseAll_pending (hp : p.pending = none) : (p.chooseAll os).pending = none := by
  induction os generalizing p with
  | nil => exact hp
  | cons o os ih => exact ih (p.choose o) rfl

theorem chooseAll_group (hp : p.group = .awaited) : (p.chooseAll os).group = .awaited := by
  induction os generalizing p with
  | nil => exact hp
  | cons o os ih =>
      refine ih (p.choose o) ?_
      show p.leaveGroup.group = .awaited
      rw [Progress.leaveGroup, hp]
      exact hp

end ChooseAll

theorem take_operands {p : Progress} (hpending : p.pending = none) (hgroup : p.group ≠ .left)
    (files : List Text) :
    ∃ q : Progress, (files.map Word.operand).foldlM Progress.take p = .ok q ∧ q.pending = none ∧
      q.unrecognized = p.unrecognized ∧
      q.arguments = { p.arguments with files := p.arguments.files ++ files } := by
  induction files generalizing p with
  | nil => exact ⟨p, rfl, hpending, rfl, by rw [List.append_nil]⟩
  | cons file files ih =>
      have htake : p.take (.operand file) = .ok
          { p with
            group := .entered
            arguments := { p.arguments with files := p.arguments.files ++ [file] } } := by
        simp only [Progress.take, hpending, Progress.takeOperand]
      obtain ⟨q, hq, hpending', hunrecognized, harguments⟩ :=
        ih (p := { p with
          group := .entered
          arguments := { p.arguments with files := p.arguments.files ++ [file] } }) hpending nofun
      refine ⟨q, ?_, hpending', hunrecognized, ?_⟩
      · rw [List.map_cons, List.foldlM_cons, htake]
        exact hq
      · rw [harguments, List.append_assoc]
        rfl

namespace Choice

def all (os : List Choice) : Arguments := os.foldl on {}

theorem foldl_on_files (os : List Choice) (a : Arguments) (files : List Text) :
    os.foldl on { a with files } = { os.foldl on a with files } := by
  induction os generalizing a with
  | nil => rfl
  | cons o os ih =>
      rw [List.foldl_cons, List.foldl_cons, ← ih]
      cases o <;> rfl

section All

variable (os : List Choice) (o : Choice)

theorem files_all : (all os).files = [] := congrArg Arguments.files (foldl_on_files os {} [])

theorem all_append_singleton : all (os ++ [o]) = o.on (all os) := by
  rw [all, List.foldl_append]
  rfl

theorem libraryPaths_all : (all os).libraryPaths = (os.filterMap library?).map Value.ofText := by
  induction os using List.reverseRecOn with
  | nil => rfl
  | append_singleton os o ih =>
      rw [all_append_singleton, List.filterMap_append, List.map_append, ← ih]
      cases o with
      | library path => rfl
      | format | external | stream | check | verbose => exact (List.append_nil _).symm

theorem externals_all :
    (all os).externals =
      (os.filterMap external?).map fun e => .text (Variables.assignment e.1 e.2) := by
  induction os using List.reverseRecOn with
  | nil => rfl
  | append_singleton os o ih =>
      rw [all_append_singleton, List.filterMap_append, List.map_append, ← ih]
      cases o with
      | external name value => rfl
      | format | library | stream | check | verbose => exact (List.append_nil _).symm

theorem stream_all : (all os).stream = decide (Choice.stream ∈ os) := by
  induction os using List.reverseRecOn with
  | nil => rfl
  | append_singleton os o ih =>
      rw [all_append_singleton]
      cases o with
      | stream => simp [on]
      | format | library | external | check | verbose => simp [on, ih]

end All

end Choice

/-- Options before and behind the files are read in order. -/
theorem ofTexts_of_spelled {before after : List Choice} {ts us : List Text}
    (hbefore : SpelledAll before ts) (hafter : SpelledAll after us) {files : List Text}
    (hfiles : ∀ file ∈ files, IsOperand file) :
    Arguments.ofTexts (ts ++ (files ++ us)) =
      .ok { Choice.all (before ++ after) with files } := by
  obtain ⟨ws, hws, htake⟩ := hbefore.reads
  obtain ⟨vs, hvs, htake'⟩ := hafter.reads
  have hwords : Word.ofTexts (ts ++ (files ++ us)) =
      .ok (ws ++ (files.map Word.operand ++ vs)) := by
    have hlast : Word.ofTexts us = .ok vs := by simpa [Word.ofTexts, Except.map] using hvs []
    rw [hws, ofTexts_operands hfiles, hlast]
    rfl
  have hpending := chooseAll_pending {} before rfl
  -- No operand comes before these, so their run is the one that names files.
  have hgroup : (Progress.chooseAll {} before).group ≠ .left := by
    rw [chooseAll_group {} before rfl]
    exact nofun
  obtain ⟨q, hq, hqpending, hqunrecognized, hqarguments⟩ := take_operands hpending hgroup files
  have hrun : (ws ++ (files.map Word.operand ++ vs)).foldlM Progress.take {} =
      .ok (q.chooseAll after) := by
    rw [List.foldlM_append, htake {} rfl]
    show (files.map Word.operand ++ vs).foldlM Progress.take (Progress.chooseAll {} before) = _
    rw [List.foldlM_append, hq]
    exact htake' q hqpending
  have hfinish : (q.chooseAll after).finish = .ok (q.chooseAll after).arguments := by
    rw [Progress.finish, chooseAll_pending q after hqpending, chooseAll_unrecognized,
      hqunrecognized, chooseAll_unrecognized]
  rw [Arguments.ofTexts, hwords]
  simp only [Arguments.ofWords, hrun]
  rw [hfinish, chooseAll_arguments, hqarguments, chooseAll_arguments, Choice.foldl_on_files,
    show (before.foldl Choice.on {}).files = [] from Choice.files_all before, List.nil_append,
    Choice.all, List.foldl_append]

end JsonnetPreview.CommandLine
