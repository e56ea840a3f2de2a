import JsonnetPreview.Text.Quoted
import JsonnetPreview.World.Path

namespace JsonnetPreview

inductive FileError where
  | notFound
  | exists
  | notADirectory
  | isADirectory
  | nameTooLong
  | refused (code : Nat) (description : Text)
  deriving DecidableEq, Repr

namespace FileError

def code : FileError → Nat
  | notFound => 2
  | «exists» => 17
  | notADirectory => 20
  | isADirectory => 21
  | nameTooLong => 36
  | refused code _ => code

def description : FileError → Text
  | notFound => "No such file or directory"
  | «exists» => "File exists"
  | notADirectory => "Not a directory"
  | isADirectory => "Is a directory"
  | nameTooLong => "File name too long"
  | refused _ description => description

/-- The errors that are taken for nothing being there: besides two of the above these are the bad
descriptor and the loop of links. -/
def isAbsence (e : FileError) : Bool := [2, 9, 20, 40].contains e.code

end FileError

def systemMessage (code : Int) (description : Text) (path : Option Text) : Text :=
  let about : Text :=
    match path with
    | none => []
    | some p => ": " ++ Text.quoted p
  "[Errno " ++ Text.ofInt code ++ "] " ++ description ++ about

inductive FileFault where
  /-- An error of the system, and the path as it was given. -/
  | system (error : FileError) (path : Text)
  | nullCharacter
  deriving DecidableEq, Repr

def FileFault.message : FileFault → Text
  | system error path => systemMessage error.code error.description (some path)
  | nullCharacter => "embedded null byte"

/-- The parts that lead from the root to a place, without two dots among them. -/
abbrev Place := List Text

-- A text that no file name can be encoded from is placed like any other.

def Path.place (directory : Path) (path : Text) : Except FileFault Place :=
  if path.contains (.char '\x00') then .error .nullCharacter
  else .ok ((Path.ofText path).resolve directory)

theorem Path.place_of_not_mem {path : Text} (h : CodePoint.char '\x00' ∉ path) (directory : Path) :
    place directory path = .ok ((Path.ofText path).resolve directory) := by
  simp [place, h]

end JsonnetPreview
