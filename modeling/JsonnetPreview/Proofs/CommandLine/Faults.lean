import JsonnetPreview.Proofs.CommandLine.Check
import JsonnetPreview.Proofs.Json.Limits
import JsonnetPreview.Proofs.Stream.Documents

namespace JsonnetPreview

namespace Payload

/-- The text that is read of a rendered text. -/
def jsonText (text : Text) : Text :=
  if Stream.separator.isPrefixOf text then Stream.join text else text

/-- A text is shown in both formats, or it is malformed and both say so in the same words. -/
def FailsAlike [Stack] (text : Text) : Prop :=
  (∃ json yaml, (rendered text).reformat OutputFormat.json.name = .ok json ∧
    (rendered text).reformat OutputFormat.yaml.name = .ok yaml) ∨
  ∃ m, (rendered text).reformat OutputFormat.json.name = .error (.malformed m) ∧
    (rendered text).reformat OutputFormat.yaml.name = .error (.malformed m)

/-- What comes of a text as JSON and as YAML, and what has to be in the text for it. -/
inductive Answers [Stack] (text : Text) :
    Except ReformatError Text → Except ReformatError Text → Prop
  | shown (json yaml : Text) : Answers text (.ok json) (.ok yaml)
  | malformed (m : Json.Malformed) : Answers text (.error (.malformed m)) (.error (.malformed m))
  | numeral (cause : NumeralTooLong) (hlimit : Numeral.digitLimit < cause.digits)
      (h : cause.digits ≤ Json.longestNumeral (jsonText text)) :
      Answers text (.error (.numeralTooLong cause)) (.error (.numeralTooLong cause))
  | unread (k : Json.Container) (h : Stack.reading < Json.nesting (jsonText text)) :
      Answers text (.error (.nestedTooDeep (.reading k))) (.error (.nestedTooDeep (.reading k)))
  | unwritten (v : Json) (hread : readRendered text = .ok v)
      (h : ¬ (Stack.writesJson v ∧ Stack.writesYaml v)) :
      Answers text ((OutputFormat.json.write v).mapError .nestedTooDeep)
        ((OutputFormat.yaml.write v).mapError .nestedTooDeep)

/-- A text within the limits of the reader, and with room for all that could be written of it. -/
structure IsModest [Stack] (text : Text) : Prop where
  numerals : Json.longestNumeral text ≤ Numeral.digitLimit
  nesting : Json.nesting text ≤ Stack.reading
  writes : ∀ v : Json, v.height ≤ Json.nesting text → Stack.writesJson v ∧ Stack.writesYaml v

section AnyStack

variable [Stack] {text : Text}

theorem reformat_of_read {v : Json} (h : readRendered text = .ok v) (f : OutputFormat) :
    (rendered text).reformat f.name = (f.write v).mapError .nestedTooDeep := by
  rw [reformat, OutputFormat.ofName?_name, h]

theorem answers_reformat (text : Text) : Answers text
    ((rendered text).reformat OutputFormat.json.name)
    ((rendered text).reformat OutputFormat.yaml.name) := by
  cases hread : readRendered text with
  | ok v =>
      rw [reformat_of_read hread, reformat_of_read hread]
      by_cases hroom : Stack.writesJson v ∧ Stack.writesYaml v
      · rw [OutputFormat.write, OutputFormat.write, Json.write?_eq_ok_iff.2 ⟨hroom.1, rfl⟩,
          Yaml.write?_eq_ok_iff.2 ⟨hroom.2, rfl⟩]
        exact .shown _ _
      · exact .unwritten v hread hroom
  | error e =>
      simp only [reformat, OutputFormat.ofName?_name, hread]
      rcases Json.limits_of_read hread with ⟨m, rfl⟩ | ⟨cause, rfl, hlimit, hle⟩ | ⟨k, rfl, hdeep⟩
      · exact .malformed m
      · exact .numeral cause hlimit hle
      · exact .unread k hdeep

theorem exists_write_eq_error {v : Json} (h : ¬ (Stack.writesJson v ∧ Stack.writesYaml v)) :
    ∃ (f : OutputFormat) (e : Json.NestedTooDeep), f.write v = .error e := by
  by_cases hjson : Stack.writesJson v
  · have hyaml : ¬ Stack.writesYaml v := fun hyaml => h ⟨hjson, hyaml⟩
    exact ⟨.yaml, .writingYaml, if_neg hyaml⟩
  · exact ⟨.json, .writingJson, if_neg hjson⟩

theorem failsAlike_iff : FailsAlike text ↔ ∀ (f : OutputFormat) (e : ReformatError),
    (rendered text).reformat f.name = .error e → ∃ m, e = .malformed m := by
  constructor
  · rintro (⟨json, yaml, hjson, hyaml⟩ | ⟨m, hjson, hyaml⟩) f e h
    · cases f with
      | json => cases hjson.symm.trans h
      | yaml => cases hyaml.symm.trans h
    · cases f with
      | json => exact ⟨m, (Except.error.inj (hjson.symm.trans h)).symm⟩
      | yaml => exact ⟨m, (Except.error.inj (hyaml.symm.trans h)).symm⟩
  · intro h
    have hanswers := answers_reformat text
    generalize hjson : (rendered text).reformat OutputFormat.json.name = json at hanswers
    generalize hyaml : (rendered text).reformat OutputFormat.yaml.name = yaml at hanswers
    cases hanswers with
    | shown json yaml => exact .inl ⟨json, yaml, hjson, hyaml⟩
    | malformed m => exact .inr ⟨m, hjson, hyaml⟩
    | numeral | unread =>
        obtain ⟨m, hm⟩ := h .yaml _ hyaml
        cases hm
    | unwritten v hread hroom =>
        obtain ⟨f, e, he⟩ := exists_write_eq_error hroom
        obtain ⟨m, hm⟩ := h f (.nestedTooDeep e) (by rw [reformat_of_read hread, he]; rfl)
        cases hm

theorem failsAlike_of_isModest (h : IsModest (jsonText text)) : FailsAlike text := by
  obtain ⟨hnumerals, hnesting, hwrites⟩ := h
  have hanswers := answers_reformat text
  generalize hjson : (rendered text).reformat OutputFormat.json.name = json at hanswers
  generalize hyaml : (rendered text).reformat OutputFormat.yaml.name = yaml at hanswers
  cases hanswers with
  | shown json yaml => exact .inl ⟨json, yaml, hjson, hyaml⟩
  | malformed m => exact .inr ⟨m, hjson, hyaml⟩
  | numeral | unread => omega
  | unwritten v hread hroom => exact absurd (hwrites v (Json.height_le_nesting hread)) hroom

end AnyStack

end Payload

theorem Encoding.refusal?_eq_none_iff {e : Encoding} {t : Text} :
    e.refusal? t = none ↔ ∀ c ∈ t, e.takes c := by
  rw [← List.dropWhile_eq_nil_iff, refusal?]
  cases t.dropWhile e.takes <;> simp

namespace CommandLine.Check

open Payload Report

/-- How a check stops at a file: with what it holds then, which is nothing of that file, and for
which fault. -/
inductive Stops [Stack] (r : Renderer) (c : Config) (f : OutputFormat) (s : Check) (file : Text) :
    Check → Fault → Prop
  | unrendered {e : CommandFault} {w : World} (hrender : r.render c s.world file = (.error e, w)) :
      Stops r c f s file { s with world := w } (.ofCommand e)
  | unextracted {rendering : Rendering} {w : World} {report : Text} {e : Interrupted}
      (hrender : r.render c s.world file = (.ok rendering, w))
      (hpayload : Payload.ofOutcome rendering.output rendering.report = .failure report)
      (h : extract report = .error e) :
      Stops r c f s file { s with failed := true, world := w.noticeAll e.notices }
        (.numeralTooLong e.cause)
  | unshown {rendering : Rendering} {w : World} {text : Text} {e : ReformatError}
      (hrender : r.render c s.world file = (.ok rendering, w))
      (hpayload : Payload.ofOutcome rendering.output rendering.report = .rendered text)
      (h : (rendered text).reformat f.name = .error e) (hother : ∀ m, e ≠ .malformed m) :
      Stops r c f s file { s with world := w } (.reformat e)
  | unprinted {rendering : Rendering} {w : World} {text shown : Text} {e : EncodeError}
      (hrender : r.render c s.world file = (.ok rendering, w))
      (hpayload : Payload.ofOutcome rendering.output rendering.report = .rendered text)
      (h : (rendered text).reformat f.name = .ok shown)
      (hprint : w.encoding.refusal? shown = some e) :
      Stops r c f s file { s with world := w } (.unencodable e)

variable {r : Renderer} {c : Config} {f : OutputFormat} {s s' : Check} {file text : Text}
  {fault : Fault}

theorem print_of_takes {t : Text} (h : ∀ c ∈ t, s.world.encoding.takes c) :
    s.print t = ({ s with output := s.output ++ asLines [t] }, none) := by
  rw [print, Encoding.refusal?_eq_none_iff.2 h]
  simp [asLines]

theorem showFailure_eq_fault_iff {report : Text} : s.showFailure report = (s', some fault) ↔
    ∃ e, extract report = .error e ∧ fault = .numeralTooLong e.cause ∧
      s' = { s with failed := true, world := s.world.noticeAll e.notices } := by
  rw [showFailure]
  cases extract report <;> simp [fail, and_comm, eq_comm]

variable [Stack]

theorem showRendered_of_failsAlike (h : FailsAlike text) (s : Check) (file : Text)
    (hprint : ∀ shown, (rendered text).reformat f.name = .ok shown →
      ∀ c ∈ shown, s.world.encoding.takes c) :
    ∃ x : Round, x.file = file ∧ x.payload = .rendered text ∧
      x.Accounted f.name ∧ s.showRendered file text f.name = (s.after x s.world, none) := by
  cases hreformat : (rendered text).reformat f.name with
  | ok shown =>
      refine ⟨_, rfl, rfl, .shown hreformat, ?_⟩
      simp [showRendered, hreformat, after, print_of_takes (hprint shown hreformat), asLines]
  | error e =>
      obtain ⟨m, rfl⟩ := failsAlike_iff.1 h f e hreformat
      refine ⟨_, rfl, rfl, .malformed hreformat, ?_⟩
      simp [showRendered, hreformat, after, fail, complain, asLines]

theorem checkAll_of_failsAlike {rendering : Rendering} {w : World} (hformat : formatOf c = f.name)
    (hrender : r.render c s.world file = (.ok rendering, w))
    (hpayload : Payload.ofOutcome rendering.output rendering.report = .rendered text)
    (h : FailsAlike text)
    (hprint : ∀ shown, (rendered text).reformat f.name = .ok shown →
      ∀ c ∈ shown, w.encoding.takes c) :
    ∃ x : Round, x.file = file ∧ x.payload = .rendered text ∧ x.Accounted f.name ∧
      ∀ rest, checkAll r c s (file :: rest) = checkAll r c (s.after x w) rest := by
  obtain ⟨x, hfile, hx, haccounted, hshow⟩ :=
    showRendered_of_failsAlike h { s with world := w } file hprint
  refine ⟨x, hfile, hx, haccounted, fun rest => ?_⟩
  have hstep : checkFile r c s file = (s.after x w, none) := by
    simp only [checkFile, hrender, hpayload, hformat]
    exact hshow
  rw [checkAll, hstep]

theorem showRendered_eq_fault_iff : s.showRendered file text f.name = (s', some fault) ↔
    s' = s ∧ ((∃ e, (rendered text).reformat f.name = .error e ∧ (∀ m, e ≠ .malformed m) ∧
        fault = .reformat e) ∨
      ∃ shown e, (rendered text).reformat f.name = .ok shown ∧
        s.world.encoding.refusal? shown = some e ∧ fault = .unencodable e) := by
  cases hreformat : (rendered text).reformat f.name with
  | ok shown =>
      simp only [showRendered, hreformat, print]
      cases hprint : s.world.encoding.refusal? shown <;> simp [hprint, and_comm, eq_comm]
  | error e =>
      simp only [showRendered, hreformat]
      cases e <;> simp [and_comm, eq_comm]

theorem checkFile_of_stops (hformat : formatOf c = f.name) (h : Stops r c f s file s' fault) :
    checkFile r c s file = (s', some fault) := by
  cases h with
  | unrendered hrender => simp only [checkFile, hrender]
  | unextracted hrender hpayload h =>
      simp only [checkFile, hrender, hpayload]
      exact showFailure_eq_fault_iff.2 ⟨_, h, rfl, rfl⟩
  | unshown hrender hpayload h hother =>
      simp only [checkFile, hrender, hpayload, hformat]
      exact showRendered_eq_fault_iff.2 ⟨rfl, .inl ⟨_, h, hother, rfl⟩⟩
  | unprinted hrender hpayload h hprint =>
      simp only [checkFile, hrender, hpayload, hformat]
      exact showRendered_eq_fault_iff.2 ⟨rfl, .inr ⟨_, _, h, hprint, rfl⟩⟩

theorem stops_of_checkFile (hformat : formatOf c = f.name)
    (h : checkFile r c s file = (s', some fault)) : Stops r c f s file s' fault := by
  rw [checkFile, hformat] at h
  rcases hrender : r.render c s.world file with ⟨e | rendering, w⟩
  · simp only [hrender] at h
    cases h
    exact .unrendered hrender
  · simp only [hrender] at h
    cases hpayload : Payload.ofOutcome rendering.output rendering.report with
    | failure report =>
        simp only [hpayload] at h
        obtain ⟨e, he, rfl, rfl⟩ := showFailure_eq_fault_iff.1 h
        exact .unextracted hrender hpayload he
    | rendered text =>
        simp only [hpayload] at h
        obtain ⟨rfl, ⟨e, he, hother, rfl⟩ | ⟨shown, e, he, hprint, rfl⟩⟩ :=
          showRendered_eq_fault_iff.1 h
        · exact .unshown hrender hpayload he hother
        · exact .unprinted hrender hpayload he hprint

theorem checkAll_append {before : List Text} (h : checkAll r c s before = (s', none))
    (rest : List Text) : checkAll r c s (before ++ rest) = checkAll r c s' rest := by
  induction before generalizing s with
  | nil =>
      cases h
      rfl
  | cons file before ih =>
      rw [checkAll] at h
      rw [List.cons_append, checkAll]
      rcases hfile : checkFile r c s file with ⟨m, none | fault⟩
      · rw [hfile] at h
        exact ih h
      · rw [hfile] at h
        cases h

theorem checkAll_eq_fault_iff {files : List Text} :
    checkAll r c s files = (s', some fault) ↔ ∃ before file after s₁,
      files = before ++ file :: after ∧ checkAll r c s before = (s₁, none) ∧
        checkFile r c s₁ file = (s', some fault) := by
  constructor
  · intro h
    induction files generalizing s with
    | nil => cases h
    | cons file files ih =>
        rw [checkAll] at h
        rcases hfile : checkFile r c s file with ⟨m, none | fault'⟩
        · simp only [hfile] at h
          obtain ⟨before, file', after, s₂, rfl, hbefore, hstop⟩ := ih h
          refine ⟨file :: before, file', after, s₂, rfl, ?_, hstop⟩
          rw [checkAll, hfile]
          exact hbefore
        · simp only [hfile] at h
          exact ⟨[], file, files, s, rfl, rfl, hfile.trans h⟩
  · rintro ⟨before, file, after, s₁, rfl, hbefore, hstop⟩
    rw [checkAll_append hbefore, checkAll, hstop]

end CommandLine.Check

namespace Payload

open CommandLine

/-- A text fails alike in both formats if it is within the limits, and what fails otherwise goes
beyond one of them. A check goes on behind every file that is malformed, or shown in what can be
printed. It stops at a file that is not rendered, whose report has too long a numeral, that fails in
another way or that is shown in what cannot be printed, and nowhere else: then nothing is said about
that file, and nothing is done with those behind it. -/
theorem reformat_fails [Stack] {c : Config} {f : OutputFormat} (hformat : Check.formatOf c = f.name)
    (r : Renderer) (s : Check) :
    (∀ text, Answers text ((rendered text).reformat OutputFormat.json.name)
      ((rendered text).reformat OutputFormat.yaml.name)) ∧
    (∀ text, IsModest (jsonText text) → FailsAlike text) ∧
    (∀ text, FailsAlike text ↔ ∀ (g : OutputFormat) (e : ReformatError),
      (rendered text).reformat g.name = .error e → ∃ m, e = .malformed m) ∧
    (∀ (file text : Text) (rendering : Rendering) (w : World),
      r.render c s.world file = (.ok rendering, w) →
        Payload.ofOutcome rendering.output rendering.report = .rendered text → FailsAlike text →
        (∀ shown, (rendered text).reformat f.name = .ok shown →
          ∀ x ∈ shown, w.encoding.takes x) →
        ∃ x : Round, x.file = file ∧ x.payload = .rendered text ∧ x.Accounted f.name ∧
          ∀ rest, Check.checkAll r c s (file :: rest) = Check.checkAll r c (s.after x w) rest) ∧
    ∀ (files : List Text) (s' : Check) (fault : Fault),
      Check.checkAll r c s files = (s', some fault) ↔
        ∃ before file after s₁, files = before ++ file :: after ∧
          Check.checkAll r c s before = (s₁, none) ∧ Check.Stops r c f s₁ file s' fault := by
  refine ⟨answers_reformat, fun _ => failsAlike_of_isModest, fun _ => failsAlike_iff,
    fun file text rendering w => Check.checkAll_of_failsAlike hformat, fun files s' fault => ?_⟩
  rw [Check.checkAll_eq_fault_iff]
  refine ⟨?_, ?_⟩
  all_goals rintro ⟨before, file, after, s₁, hfiles, hbefore, hstop⟩
  · exact ⟨before, file, after, s₁, hfiles, hbefore, Check.stops_of_checkFile hformat hstop⟩
  · exact ⟨before, file, after, s₁, hfiles, hbefore, Check.checkFile_of_stops hformat hstop⟩

def brokenWorld : World :=
  { Session.sampleWorld with
    outcomes := fun n => if n = 0 then .exited 0 "[1" "" else .exited 0 "[]" "" }

theorem reformat_fails_sample :
    FailsAlike "[1, [2]]" ∧ FailsAlike "[1" ∧
    ∃ x : Round, x.file = "a.jsonnet" ∧ x.payload = .rendered "[1" ∧ x.Accounted "json" ∧
      Check.run .defaults brokenWorld ["a.jsonnet", "b.jsonnet"] =
        Check.checkAll (Renderer.ofConfig .defaults brokenWorld).1 .defaults
          (Check.after { world := brokenWorld } x
            { brokenWorld with commands := [⟨.str "jsonnet", ["a.jsonnet"]⟩] }) ["b.jsonnet"] := by
  have hformat : Check.formatOf .defaults = OutputFormat.json.name := rfl
  obtain ⟨-, hmodest, -, hnext, -⟩ := reformat_fails hformat
    (Renderer.ofConfig .defaults brokenWorld).1 { world := brokenWorld }
  have hwrites (v : Json) (h : v.height ≤ 2) : Stack.writesJson v ∧ Stack.writesYaml v :=
    ⟨decide_eq_true (Nat.lt_of_le_of_lt h (by decide)),
      decide_eq_true (Nat.lt_of_le_of_lt h (by decide))⟩
  have hbroken : FailsAlike "[1" := hmodest _ ⟨by decide, by decide, fun v hv =>
    hwrites v (Nat.le_succ_of_le hv)⟩
  refine ⟨hmodest _ ⟨by decide, by decide, hwrites⟩, hbroken, ?_⟩
  obtain ⟨x, hfile, hx, haccounted, hrest⟩ := hnext "a.jsonnet" "[1" ⟨"[1", []⟩
    { brokenWorld with commands := [⟨.str "jsonnet", ["a.jsonnet"]⟩] } rfl rfl hbroken nofun
  exact ⟨x, hfile, hx, haccounted, hrest ["b.jsonnet"]⟩

def longNumeral : Text := Numeral.text (List.replicate 4301 1)

theorem reformat_longNumeral (f : OutputFormat) :
    (rendered longNumeral).reformat f.name = .error (.numeralTooLong ⟨4301⟩) := by
  have hwhole : Json.IsWhole (List.replicate 4301 1) :=
    ⟨fun d hd => List.eq_of_mem_replicate hd ▸ by decide,
      .inr ⟨1, _, List.replicate_succ, by decide⟩⟩
  have hlength : (List.replicate 4301 1).length = 4301 := List.length_replicate
  have hread : Json.read longNumeral = .error (.numeralTooLong ⟨4301⟩) := by
    have hlong := Json.read_text_of_long hwhole (by rw [hlength]; decide)
    rwa [hlength] at hlong
  have hcons : longNumeral = .char '1' :: Numeral.text (List.replicate 4300 1) := rfl
  have hstream : Stream.separator.isPrefixOf longNumeral = false := by
    rw [hcons]
    rfl
  rw [reformat, OutputFormat.ofName?_name, readRendered, hstream]
  simp only [Bool.false_eq_true, if_false, hread]

def longWorld : World :=
  { Session.sampleWorld with
    outcomes := fun n => if n = 0 then .exited 0 longNumeral "" else .exited 0 "[]" "" }

def longWorldAfter : World :=
  { longWorld with commands := [⟨.str "jsonnet", ["a.jsonnet"]⟩] }

def loneHalf : Text := "\"\\ud800\""

def loneCheck : Check.Step :=
  Check.run .defaults
    { Session.sampleWorld with
      outcomes := fun n => if n = 0 then .exited 0 loneHalf "" else .exited 0 "[]" "" }
    ["a.jsonnet", "b.jsonnet"]

/-- A long integer is not read, and the check stops at its file without a word about it. Many
brackets are read and shown as JSON, but not as YAML. Half of a character is shown in both formats,
and the check stops because it cannot be printed. -/
theorem not_failsAlike :
    ¬ FailsAlike longNumeral ∧
    (∃ s : Check, Check.run .defaults longWorld ["a.jsonnet", "b.jsonnet"] =
      (s, some (.reformat (.numeralTooLong ⟨4301⟩))) ∧ s.errors = [] ∧
        s.world.commands.length = 1) ∧
    (∃ json, (rendered (Json.brackets 331)).reformat OutputFormat.json.name = .ok json) ∧
    (rendered (Json.brackets 331)).reformat OutputFormat.yaml.name =
      .error (.nestedTooDeep .writingYaml) ∧
    FailsAlike loneHalf ∧
    loneCheck.2 = some (.unencodable ⟨"utf-8", 1, [.surrogate 0], "surrogates not allowed"⟩) ∧
    loneCheck.1.errors = [] ∧ loneCheck.1.world.commands.length = 1 := by
  have hread : readRendered (Json.brackets 331) = .ok (Json.wrap 330 (.arr [])) := by
    have hstream : Stream.separator.isPrefixOf (Json.brackets 331) = false := rfl
    rw [readRendered, hstream]
    exact Json.read_brackets 330 (by decide)
  have hjson : OutputFormat.json.write (Json.wrap 330 (.arr [])) =
      .ok (Json.wrap 330 (.arr [])).pretty :=
    Json.write?_eq_ok_iff.2 ⟨Json.writesJson_of_read hread, rfl⟩
  have hlone : FailsAlike loneHalf :=
    .inl ⟨[.char '"', .surrogate 0, .char '"'], "\"\\uD800\"\n", by decide +kernel,
      by decide +kernel⟩
  refine ⟨fun h => ?_, ?_, ⟨_, (reformat_of_read hread .json).trans (congrArg _ hjson)⟩, ?_, hlone,
    by decide +kernel, by decide +kernel, by decide +kernel⟩
  · obtain ⟨m, hm⟩ := failsAlike_iff.1 h .json _ (reformat_longNumeral .json)
    cases hm
  · refine ⟨{ world := longWorldAfter }, ?_, rfl, rfl⟩
    have hrender : (Renderer.ofConfig .defaults longWorld).1.render .defaults longWorld
        "a.jsonnet" = (.ok ⟨longNumeral, []⟩, longWorldAfter) := rfl
    have hformat : Check.formatOf .defaults = OutputFormat.json.name := rfl
    have hfile : Check.checkFile (Renderer.ofConfig .defaults longWorld).1 .defaults
        { world := longWorld } "a.jsonnet" =
          ({ world := longWorldAfter }, some (.reformat (.numeralTooLong ⟨4301⟩))) := by
      simp only [Check.checkFile, hrender, Payload.ofOutcome, List.isEmpty_nil, if_true,
        Check.showRendered, hformat, reformat_longNumeral]
    show Check.checkAll (Renderer.ofConfig .defaults longWorld).1 .defaults { world := longWorld }
      ["a.jsonnet", "b.jsonnet"] = _
    rw [Check.checkAll, hfile]
  · rw [reformat_of_read hread, write_yaml_wrap, if_neg (by decide)]
    rfl

end Payload

end JsonnetPreview
