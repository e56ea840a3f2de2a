import JsonnetPreview.Config.Basic
import JsonnetPreview.Json.Error
import JsonnetPreview.Json.Printer
import JsonnetPreview.Text.Lines
import JsonnetPreview.World.Basic

namespace JsonnetPreview

/-- The text of a file, with uniform line ends. -/
def Octets.text (content : Octets) : Except Utf8.DecodeError Text :=
  (Utf8.decode content).map Text.unifyNewlines

inductive StoreFault where
  | file (fault : FileFault)
  | undecodable (error : Utf8.DecodeError)
  | numeralTooLong (cause : NumeralTooLong)
  | nestedTooDeep (cause : Json.NestedTooDeep)
  deriving DecidableEq, Repr

def StoreFault.message : StoreFault → Text
  | file fault => fault.message
  | undecodable error => error.message
  | numeralTooLong cause => cause.message
  | nestedTooDeep cause => cause.message

namespace Config

def folder (w : World) : Place := w.home.parts ++ [Text.ofString ".jsonnetpeek"]

def place (w : World) : Place := folder w ++ [Text.ofString "config.json"]

/-- A file that cannot be read or does not hold JSON is noticed, and the defaults are taken. -/
def loadFile [Stack] (w : World) : Except StoreFault (Config × World) :=
  let path := Path.ofPlace (place w)
  let unreadable (reason : Text) := (defaults, w.notice (.unreadableConfig path reason))
  match w.files.node? (place w) with
  | none => .ok (defaults, w)
  | some .directory => .ok (unreadable (FileFault.message (.system .isADirectory path)))
  | some (.file content) =>
    match Octets.text content with
    | .error e => .error (.undecodable e)
    | .ok text =>
      match Json.read text with
      | .ok v => .ok (ofJson v, w)
      | .error (.malformed m) => .ok (unreadable m.message)
      | .error (.numeralTooLong cause) => .error (.numeralTooLong cause)
      | .error (.nestedTooDeep cause) => .error (.nestedTooDeep cause)

def load [Stack] (w : World) : Except StoreFault (Config × World) :=
  match w.files.ensureDirectory (folder w) with
  | .error fault => .error (.file fault)
  | .ok files => loadFile { w with files }

def content (c : Config) : Octets := Utf8.encode (Json.obj c.settings).prettyAscii

/-- Without room for all of the settings a part of them is written, and nothing is said of the world
after that. -/
def save [Stack] (c : Config) (w : World) : Except StoreFault World :=
  match w.files.ensureDirectory (folder w) with
  | .error fault => .error (.file fault)
  | .ok files =>
    match files.write (place w) (content c) with
    | .error fault => .error (.file fault)
    | .ok files =>
      if Stack.writesJson (.obj c.settings) then .ok { w with files }
      else .error (.nestedTooDeep .writingJson)

/-- Set a setting and write all settings to disk. It stays set if they cannot be written. -/
def assign [Stack] (c : Config) (name : Text) (v : Json) (w : World) :
    Config × Except StoreFault World :=
  let c := c.set name v
  (c, c.save w)

end Config
end JsonnetPreview
