import JsonnetPreview.CommandLine.Word

namespace JsonnetPreview.CommandLine

/-- The value of an option. Two dashes are taken out of its values, so that none is left. -/
inductive Value where
  | text (t : Text)
  | empty
  deriving DecidableEq, Repr

namespace Value

def dashes : Text := "--"

def ofText (t : Text) : Value := if t = dashes then empty else text t

def toJson : Value → Json
  | text t => .str t
  | empty => .arr []

theorem ofText_of_ne {t : Text} (h : t ≠ dashes) : ofText t = text t := by simp [ofText, h]

end Value

structure Arguments where
  files : List Text := []
  format : Option Value := none
  libraryPaths : List Value := []
  externals : List Value := []
  stream : Bool := false
  check : Bool := false
  verbose : Bool := false
  deriving DecidableEq, Repr

abbrev Setting := Switch × Value

inductive Halt where
  | help
  | wrong (e : UsageError)
  deriving DecidableEq, Repr

def formatFault? : Value → Option UsageError
  | .empty => none
  | .text t => if (OutputFormat.ofName? t).isSome then none else some (.unknownFormat t)

def Arguments.apply (a : Arguments) : Setting → Except Halt Arguments
  | (.help, _) => .error .help
  | (.format, value) =>
    match formatFault? value with
    | none => .ok { a with format := some value }
    | some e => .error (.wrong e)
  | (.libraryPath, value) => .ok { a with libraryPaths := a.libraryPaths ++ [value] }
  | (.externalVariable, value) => .ok { a with externals := a.externals ++ [value] }
  | (.stream, _) => .ok { a with stream := true }
  | (.check, _) => .ok { a with check := true }
  | (.verbose, _) => .ok { a with verbose := true }

structure Chain where
  settings : List Setting := []
  /-- The last option, if its value has to be the next word. -/
  pending : Option Switch := none
  deriving DecidableEq, Repr

namespace Chain

def alone (s : Switch) : Chain :=
  if s.takesValue then { pending := some s } else { settings := [(s, .empty)] }

def withText (s : Switch) (t : Text) : Except UsageError Chain :=
  if s.takesValue then .ok { settings := [(s, Value.ofText t)] } else .error (.ignoredValue s t)

def cons (setting : Setting) (chain : Chain) : Chain :=
  { chain with settings := setting :: chain.settings }

/-- An option with the text behind its letter. That is its value if it takes one; otherwise it has
to begin with the letter of a further option. -/
def withRest (s : Switch) : Text → Except UsageError Chain
  | [] => withText s []
  | c :: rest =>
    if s.takesValue then withText s (c :: rest)
    else
      match Switch.ofLetter? c with
      | none => withText s (c :: rest)
      | some next =>
        if rest.isEmpty then .ok ((alone next).cons (s, .empty))
        else (withRest next rest).map (cons (s, .empty))

def ofLetters (s : Switch) : Option Text → Except UsageError Chain
  | none => .ok (alone s)
  | some rest => withRest s rest

def ofName (s : Switch) : Option Text → Except UsageError Chain
  | none => .ok (alone s)
  | some t => withText s t

end Chain

/-- Where the words stand to the operands that name files. -/
inductive Group where
  | awaited
  | entered
  | left
  deriving DecidableEq, Repr

structure Progress where
  arguments : Arguments := {}
  group : Group := .awaited
  /-- The settings of the last word, of which the last one has no value yet. -/
  pending : Option (List Setting × Switch) := none
  unrecognized : List Text := []
  deriving DecidableEq, Repr

namespace Progress

def refuse (p : Progress) (t : Text) : Progress := { p with unrecognized := p.unrecognized ++ [t] }

def takeOperand (p : Progress) (t : Text) : Progress :=
  match p.group with
  | .left => p.refuse t
  | _ =>
    { p with
      group := .entered
      arguments := { p.arguments with files := p.arguments.files ++ [t] } }

def takeSeparator (p : Progress) : Progress :=
  match p.group with
  | .left => p.refuse Value.dashes
  | _ => { p with group := .entered }

def leaveGroup (p : Progress) : Progress :=
  match p.group with
  | .entered => { p with group := .left }
  | _ => p

def applyAll (p : Progress) (settings : List Setting) : Except Halt Progress :=
  (settings.foldlM Arguments.apply p.arguments).map fun arguments =>
    { p with arguments, pending := none }

def takeChain (p : Progress) (chain : Chain) : Except Halt Progress :=
  let p := p.leaveGroup
  match chain.pending with
  | none => p.applyAll chain.settings
  | some s => .ok { p with pending := some (chain.settings, s) }

def takeOption (p : Progress) : Except UsageError Chain → Except Halt Progress
  | .ok chain => p.takeChain chain
  | .error e => .error (.wrong e)

def take (p : Progress) (w : Word) : Except Halt Progress :=
  match p.pending, w with
  | some (earlier, s), .operand value => p.applyAll (earlier ++ [(s, Value.ofText value)])
  | some (_, s), _ => .error (.wrong (.missingValue s))
  | none, .operand t => .ok (p.takeOperand t)
  | none, .separator => .ok p.takeSeparator
  | none, .unknown t => .ok (p.leaveGroup.refuse t)
  | none, .letter s rest => p.takeOption (Chain.ofLetters s rest)
  | none, .name s value => p.takeOption (Chain.ofName s value)

def finish (p : Progress) : Except Halt Arguments :=
  match p.pending, p.unrecognized with
  | some (_, s), _ => .error (.wrong (.missingValue s))
  | none, [] => .ok p.arguments
  | none, words => .error (.wrong (.unrecognized words))

end Progress

def Arguments.ofWords (words : List Word) : Except Halt Arguments :=
  match words.foldlM Progress.take {} with
  | .ok p => p.finish
  | .error h => .error h

def Arguments.ofTexts (ts : List Text) : Except Halt Arguments :=
  match Word.ofTexts ts with
  | .ok words => ofWords words
  | .error e => .error (.wrong e)

end JsonnetPreview.CommandLine
