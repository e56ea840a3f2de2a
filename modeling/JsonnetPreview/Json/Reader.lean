import JsonnetPreview.Json.Basic

namespace JsonnetPreview.Json

inductive Complaint where
  | byteOrderMark
  | value
  | propertyName
  | colon
  | comma
  | extraData
  | unterminatedString
  | controlCharacter
  | escape
  | unicodeEscape
  deriving DecidableEq, Repr

/-- A complaint and the offset that it is about, a numeral that is not read, or an array or object
in more others than are read. -/
inductive Failure where
  | malformed (complaint : Complaint) (offset : Nat)
  | numeralTooLong (cause : NumeralTooLong)
  | nestedTooDeep (cause : NestedTooDeep)
  deriving DecidableEq, Repr

/-- An element of a string: itself, or sixteen bits that an escape names. -/
inductive Unit16 where
  | plain (c : CodePoint)
  | escaped (n : Nat)
  deriving DecidableEq, Repr

/-- Two escapes in a row that name the halves of a surrogate pair make one character. -/
def assemble : List Unit16 → Text
  | [] => []
  | .plain c :: r => c :: assemble r
  | .escaped n :: r =>
    match r with
    | .escaped m :: r' =>
      if 0xD800 ≤ n ∧ n < 0xDC00 ∧ 0xDC00 ≤ m ∧ m < 0xE000 then
        CodePoint.ofValue (0x10000 + (n - 0xD800) * 0x400 + (m - 0xDC00)) :: assemble r'
      else CodePoint.ofValue n :: assemble (.escaped m :: r')
    | r => CodePoint.ofValue n :: assemble r

inductive Scope where
  /-- An array and the items before this one, the last one first. -/
  | items (done : List Json)
  /-- An object, the members before this one, and the name of this one. -/
  | member (done : Table Text Json) (key : Text)

inductive Role where
  | value
  | key (done : Table Text Json)

inductive NumberPhase where
  | zero
  | whole
  | point (mark : Nat)
  | fraction
  | exponentMark (mark : Nat)
  | exponentSign (mark : Nat)
  | exponent
  deriving DecidableEq, Repr

inductive Mode where
  /-- A value, or the end of an empty array. -/
  | value (mayClose : Bool)
  /-- The name of a member, or the end of an empty object. -/
  | key (done : Table Text Json) (mayClose : Bool)
  | colon (done : Table Text Json) (key : Text)
  /-- The rest of a string that starts at an offset; what is read of it is kept in reverse. -/
  | string (role : Role) (start : Nat) (body : List Unit16)
  | escape (role : Role) (start : Nat) (body : List Unit16)
  | hex (role : Role) (start : Nat) (body : List Unit16) (digits : List Nat)
  /-- The rest of a word that stands for a value. -/
  | word (start : Nat) (value : Json) (rest : List Char)
  | minus (start : Nat)
  | number (n : NumberText) (phase : NumberPhase)
  | after (v : Json)

structure State where
  mode : Mode
  scopes : List Scope

def isSpace (c : CodePoint) : Bool :=
  c = .char ' ' || c = .char '\n' || c = .char '\t' || c = .char '\r'

def digit? : CodePoint → Option Nat
  | .char c => if c.isDigit then some (c.toNat - 48) else none
  | .surrogate _ => none

def hexDigit? : CodePoint → Option Nat
  | .char c =>
    if c.isDigit then some (c.toNat - 48)
    else if 'a' ≤ c ∧ c ≤ 'f' then some (c.toNat - 87)
    else if 'A' ≤ c ∧ c ≤ 'F' then some (c.toNat - 55)
    else none
  | .surrogate _ => none

def escapedChar? : CodePoint → Option Char
  | .char '"' => some '"'
  | .char '\\' => some '\\'
  | .char '/' => some '/'
  | .char 'b' => some '\x08'
  | .char 'f' => some '\x0c'
  | .char 'n' => some '\n'
  | .char 'r' => some '\r'
  | .char 't' => some '\t'
  | _ => none

variable [Stack]

def openIn (scopes : List Scope) (container : Container) (s : State) : Except Failure State :=
  if scopes.length < Stack.reading then .ok s else .error (.nestedTooDeep (.reading container))

def afterComplaint : List Scope → Complaint
  | [] => .extraData
  | _ :: _ => .comma

def beginValue (scopes : List Scope) (p : Nat) (c : CodePoint) : Except Failure State :=
  match c with
  | .char '"' => .ok ⟨.string .value p [], scopes⟩
  | .char '\x7b' => openIn scopes .object ⟨.key [] true, scopes⟩
  | .char '[' => openIn scopes .array ⟨.value true, .items [] :: scopes⟩
  | .char '-' => .ok ⟨.minus p, scopes⟩
  | .char 'n' => .ok ⟨.word p .null ['u', 'l', 'l'], scopes⟩
  | .char 't' => .ok ⟨.word p (.bool true) ['r', 'u', 'e'], scopes⟩
  | .char 'f' => .ok ⟨.word p (.bool false) ['a', 'l', 's', 'e'], scopes⟩
  | .char 'N' => .ok ⟨.word p (.float .nan) ['a', 'N'], scopes⟩
  | .char 'I' =>
    .ok ⟨.word p (.float (.infinite false)) ['n', 'f', 'i', 'n', 'i', 't', 'y'], scopes⟩
  | c =>
    match digit? c with
    | some 0 => .ok ⟨.number { negative := false, whole := [0] } .zero, scopes⟩
    | some d => .ok ⟨.number { negative := false, whole := [d] } .whole, scopes⟩
    | none => .error (.malformed .value p)

def stepAfter (v : Json) (scopes : List Scope) (p : Nat) (c : CodePoint) : Except Failure State :=
  if isSpace c then .ok ⟨.after v, scopes⟩
  else
    match scopes, c with
    | .items done :: rest, .char ',' => .ok ⟨.value false, .items (v :: done) :: rest⟩
    | .items done :: rest, .char ']' => .ok ⟨.after (.arr (v :: done).reverse), rest⟩
    | .member done key :: rest, .char ',' => .ok ⟨.key (done.set key v) false, rest⟩
    | .member done key :: rest, .char '\x7d' => .ok ⟨.after (.obj (done.set key v)), rest⟩
    | scopes, _ => .error (.malformed (afterComplaint scopes) p)

def NumberText.value (n : NumberText) : Except Failure Json :=
  match n.value? with
  | .ok v => .ok v
  | .error cause => .error (.numeralTooLong cause)

def endNumber (n : NumberText) (scopes : List Scope) (p : Nat) (c : CodePoint) :
    Except Failure State := do
  stepAfter (← n.value) scopes p c

/-- A point or an exponent mark without a digit behind it does not belong to the number: the number
ends before it, and no value may be followed by it. -/
def giveUpNumber (n : NumberText) (scopes : List Scope) (mark : Nat) : Except Failure State := do
  let _ ← n.value
  .error (.malformed (afterComplaint scopes) mark)

def stepDigit (n : NumberText) (phase : NumberPhase) (scopes : List Scope) (p : Nat)
    (c : CodePoint) (d : Nat) : Except Failure State :=
  match phase with
  | .zero => endNumber n scopes p c
  | .whole => .ok ⟨.number { n with whole := d :: n.whole } .whole, scopes⟩
  | .point _ | .fraction =>
    .ok ⟨.number { n with fraction := d :: n.fraction } .fraction, scopes⟩
  | .exponentMark _ | .exponentSign _ | .exponent =>
    .ok ⟨.number { n with exponent := d :: n.exponent } .exponent, scopes⟩

def stepNumber (n : NumberText) (phase : NumberPhase) (scopes : List Scope) (p : Nat)
    (c : CodePoint) : Except Failure State :=
  let isMark := c = .char 'e' || c = .char 'E'
  match phase with
  | .zero | .whole =>
    if c = .char '.' then .ok ⟨.number n (.point p), scopes⟩
    else if isMark then .ok ⟨.number n (.exponentMark p), scopes⟩
    else endNumber n scopes p c
  | .fraction =>
    if isMark then .ok ⟨.number n (.exponentMark p), scopes⟩ else endNumber n scopes p c
  | .exponent => endNumber n scopes p c
  | .exponentMark mark =>
    if c = .char '+' then .ok ⟨.number n (.exponentSign mark), scopes⟩
    else if c = .char '-' then
      .ok ⟨.number { n with exponentNegative := true } (.exponentSign mark), scopes⟩
    else giveUpNumber n scopes mark
  | .point mark | .exponentSign mark => giveUpNumber n scopes mark

def closeString (role : Role) (body : List Unit16) (scopes : List Scope) : State :=
  let text := assemble body.reverse
  match role with
  | .value => ⟨.after (.str text), scopes⟩
  | .key done => ⟨.colon done text, scopes⟩

def step (s : State) (p : Nat) (c : CodePoint) : Except Failure State :=
  match s.mode with
  | .value mayClose =>
    if isSpace c then .ok s
    else
      match mayClose, c, s.scopes with
      | true, .char ']', _ :: rest => .ok ⟨.after (.arr []), rest⟩
      | _, c, scopes => beginValue scopes p c
  | .key done mayClose =>
    if isSpace c then .ok s
    else if c = .char '"' then .ok { s with mode := .string (.key done) p [] }
    else if mayClose && c = .char '\x7d' then .ok { s with mode := .after (.obj []) }
    else .error (.malformed .propertyName p)
  | .colon done key =>
    if isSpace c then .ok s
    else if c = .char ':' then .ok ⟨.value false, .member done key :: s.scopes⟩
    else .error (.malformed .colon p)
  | .string role start body =>
    if c = .char '"' then .ok (closeString role body s.scopes)
    else if c = .char '\\' then .ok { s with mode := .escape role start body }
    else if c.value < 0x20 then .error (.malformed .controlCharacter p)
    else .ok { s with mode := .string role start (.plain c :: body) }
  | .escape role start body =>
    if c = .char 'u' then .ok { s with mode := .hex role start body [] }
    else
      match escapedChar? c with
      | some c => .ok { s with mode := .string role start (.plain (.char c) :: body) }
      | none => .error (.malformed .escape (p - 1))
  | .hex role start body digits =>
    match digits, hexDigit? c with
    | [h, i, j], some k =>
      let n := ((h * 16 + i) * 16 + j) * 16 + k
      .ok { s with mode := .string role start (.escaped n :: body) }
    | digits, some d => .ok { s with mode := .hex role start body (digits ++ [d]) }
    | digits, none => .error (.malformed .unicodeEscape (p - 1 - digits.length))
  | .word start v rest =>
    match rest with
    | [] => stepAfter v s.scopes p c
    | r :: rest =>
      if c = .char r then
        .ok { s with mode := if rest.isEmpty then .after v else .word start v rest }
      else .error (.malformed .value start)
  | .minus start =>
    match digit? c with
    | some 0 => .ok { s with mode := .number { negative := true, whole := [0] } .zero }
    | some d => .ok { s with mode := .number { negative := true, whole := [d] } .whole }
    | none =>
      if c = .char 'I' then
        let rest := ['n', 'f', 'i', 'n', 'i', 't', 'y']
        .ok { s with mode := .word start (.float (.infinite true)) rest }
      else .error (.malformed .value start)
  | .number n phase =>
    match digit? c with
    | some d => stepDigit n phase s.scopes p c d
    | none => stepNumber n phase s.scopes p c
  | .after v => stepAfter v s.scopes p c

def State.finish (s : State) (p : Nat) : Except Failure Json :=
  let whole (v : Json) : Except Failure Json :=
    if s.scopes.isEmpty then .ok v else .error (.malformed .comma p)
  match s.mode with
  | .value _ => .error (.malformed .value p)
  | .key _ _ => .error (.malformed .propertyName p)
  | .colon _ _ => .error (.malformed .colon p)
  | .string _ _ (.escaped _ :: _) => .error (.malformed .unicodeEscape (p - 5))
  | .string _ start _ => .error (.malformed .unterminatedString start)
  | .escape _ start _ => .error (.malformed .unterminatedString start)
  | .hex _ _ _ digits => .error (.malformed .unicodeEscape (p - 1 - digits.length))
  | .word start v rest => if rest.isEmpty then whole v else .error (.malformed .value start)
  | .minus start => .error (.malformed .value start)
  | .number n phase => do
    let v ← n.value
    match phase with
    | .point start => .error (.malformed (afterComplaint s.scopes) start)
    | .exponentMark start => .error (.malformed (afterComplaint s.scopes) start)
    | .exponentSign start => .error (.malformed (afterComplaint s.scopes) start)
    | _ => whole v
  | .after v => whole v

def run (s : State) (p : Nat) : Text → Except Failure State
  | [] => .ok s
  | c :: r =>
    match step s p c with
    | .ok s' => run s' (p + 1) r
    | .error e => .error e

def start : State := ⟨.value false, []⟩

def parse (t : Text) : Except Failure Json :=
  match t with
  | .char '\uFEFF' :: _ => .error (.malformed .byteOrderMark 0)
  | t =>
    match run start 0 t with
    | .ok s => s.finish t.length
    | .error e => .error e

theorem run_append (s : State) (p : Nat) (t u : Text) :
    run s p (t ++ u) = (run s p t).bind fun s' => run s' (p + t.length) u := by
  induction t generalizing s p with
  | nil => rfl
  | cons c r ih =>
    simp only [List.cons_append, run, List.length_cons]
    cases step s p c with
    | error e => rfl
    | ok s' => simp only [ih, Nat.add_assoc, Nat.add_comm 1]

end JsonnetPreview.Json
