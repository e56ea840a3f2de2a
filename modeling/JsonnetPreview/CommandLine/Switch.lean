import JsonnetPreview.Text.Basic

namespace JsonnetPreview.CommandLine

inductive Switch where
  | help
  | format
  | libraryPath
  | externalVariable
  | stream
  | check
  | verbose
  deriving DecidableEq, Repr

namespace Switch

def all : List Switch :=
  [help, format, libraryPath, externalVariable, stream, check, verbose]

def letter? : Switch → Option Char
  | help => some 'h'
  | format => some 'f'
  | libraryPath => some 'J'
  | externalVariable => some 'V'
  | stream => some 'y'
  | check => none
  | verbose => some 'v'

def name : Switch → Text
  | help => "help"
  | format => "format"
  | libraryPath => "jpath"
  | externalVariable => "ext-str"
  | stream => "yaml-stream"
  | check => "check"
  | verbose => "verbose"

def takesValue : Switch → Bool
  | format | libraryPath | externalVariable => true
  | help | stream | check | verbose => false

def written (s : Switch) : Text := "--" ++ s.name

def title (s : Switch) : Text :=
  match s.letter? with
  | none => s.written
  | some c => .char '-' :: .char c :: .char '/' :: s.written

def ofLetter? (c : CodePoint) : Option Switch :=
  all.find? fun s => s.letter?.map CodePoint.char = some c

def ofName? (t : Text) : Option Switch := all.find? (·.name = t)

def beginningWith (t : Text) : List Switch := all.filter fun s => t.isPrefixOf s.name

theorem ofName?_name (s : Switch) : ofName? s.name = some s := by cases s <;> decide

theorem ofLetter?_of_letter? {s : Switch} {c : Char} (h : s.letter? = some c) :
    ofLetter? (.char c) = some s := by
  cases s <;> simp only [letter?, Option.some.injEq, reduceCtorEq] at h <;> subst h <;> decide

end Switch
end JsonnetPreview.CommandLine
