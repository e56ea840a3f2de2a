import JsonnetPreview.Json.Basic
import JsonnetPreview.Notice
import JsonnetPreview.World.FileTree

namespace JsonnetPreview

/-- A command. Its program is named by a setting, which may hold any value. -/
structure Command where
  program : Json
  arguments : List Text

def Command.words (c : Command) : List Json := c.program :: c.arguments.map .str

structure Encoding where
  name : Text
  takes : CodePoint → Bool
  reason : Text

structure EncodeError where
  encoding : Text
  offset : Nat
  refused : Text
  reason : Text
  deriving DecidableEq, Repr

def EncodeError.message (e : EncodeError) : Text :=
  let place : Text :=
    match e.refused with
    | [c] => " '" ++ Text.escaped c ++ "' in position " ++ Text.ofNat e.offset
    | refused =>
      "s in position " ++ Text.ofNat e.offset ++ .char '-' ::
        Text.ofNat (e.offset + refused.length - 1)
  .char '\'' :: e.encoding ++ "' codec can't encode character" ++ place ++ ": " ++ e.reason

namespace Encoding

def utf8 : Encoding where
  name := "utf-8"
  takes
    | .char _ => true
    | .surrogate _ => false
  reason := "surrogates not allowed"

/-- A text is taken as a whole or not at all. -/
def refusal? (e : Encoding) (t : Text) : Option EncodeError :=
  match t.dropWhile e.takes with
  | [] => none
  | c :: r =>
    some ⟨e.name, (t.takeWhile e.takes).length, c :: r.takeWhile (!e.takes ·), e.reason⟩

end Encoding

inductive RunFault where
  | described (text : Text)
  | numbered (code : Int) (description : Text) (path : Option Text)
  deriving DecidableEq, Repr

def RunFault.message : RunFault → Text
  | described text => text
  | numbered code description path => systemMessage code description path

/-- What comes of a run. It raises something else where it cannot be tried at all, as with a timeout
that is no number or a null character in a word. -/
inductive RunOutcome where
  | exited (code : Int) (output errors : Text)
  | timedOut
  | refused (fault : RunFault)
  | raised (message : Text)
  deriving DecidableEq, Repr

/-- Standard error takes every text, with escapes for what cannot be encoded, so only standard output
has an encoding here. -/
structure World where
  files : FileTree
  directory : Path
  home : Path
  programs : List Text
  /-- What comes of the first, the second and every further run. -/
  outcomes : Nat → RunOutcome
  encoding : Encoding := .utf8
  commands : List Command := []
  notices : List Notice := []

namespace World

def find? (w : World) (name : Text) : Option Text :=
  if w.programs.contains name then some ("/usr/bin/" ++ (Path.split name).getLast?.getD [])
  else none

-- Looking for what is no string is an error; here it is just not found.

def findNamed? (w : World) : Json → Option Text
  | .str name => w.find? name
  | _ => none

def run (w : World) (c : Command) : RunOutcome × World :=
  (w.outcomes w.commands.length, { w with commands := w.commands ++ [c] })

def notice (w : World) (n : Notice) : World := { w with notices := w.notices ++ [n] }

def noticeAll (w : World) (ns : List Notice) : World := { w with notices := w.notices ++ ns }

end World
end JsonnetPreview
