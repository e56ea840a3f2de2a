import JsonnetPreview.Table
import JsonnetPreview.Text.Utf8
import JsonnetPreview.World.FileFault

namespace JsonnetPreview

inductive Node where
  | directory
  | file (content : Octets)
  deriving DecidableEq, Repr

/-- The nodes at all places but the root, which is a directory. In some directories the system looks
nothing up, but says that it does not, as where one may not be searched. -/
structure FileTree where
  nodes : Table Place Node
  barred : Table Place FileError := []
  deriving Repr

namespace FileTree

def node? (t : FileTree) (place : Place) : Option Node :=
  if place.isEmpty then some .directory else t.nodes.get? place

def barred? (t : FileTree) (place : Place) : Option FileError :=
  if place.isEmpty then none else t.barred.get? place

def nameLimit : Nat := 255

/-- Where the parts lead to from a place, and what is there. -/
def locate (t : FileTree) (place : Place) : List Text → Except FileError (Place × Node)
  | [] =>
    match t.node? place with
    | some node => .ok (place, node)
    | none => .error .notFound
  | part :: rest =>
    match t.node? place with
    | none => .error .notFound
    | some (.file _) => .error .notADirectory
    | some .directory =>
      match t.barred? place with
      | some e => .error e
      | none =>
        if part = Path.here then locate t place rest
        else if part = Path.up then locate t place.dropLast rest
        else if nameLimit < (Utf8.encode part).length then .error .nameTooLong
        else locate t (place ++ [part]) rest

def writtenParts (path : Text) : List Text :=
  (Path.split path).filter (!·.isEmpty) ++
    if path.getLast? = some (.char '/') then [Path.here] else []

def pathLimit : Nat := 4096

def locateWritten (t : FileTree) (directory : Path) (path : Text) :
    Except FileError (Place × Node) :=
  let parts := writtenParts path
  if path.isEmpty then .error .notFound
  else if pathLimit ≤ (Utf8.encode path).length then .error .nameTooLong
  else if Path.anchorOf path = .relative then t.locate [] (directory.parts ++ parts)
  else t.locate [] parts

def lookUp (t : FileTree) (directory : Path) (path : Text) : Except FileFault (Place × Node) :=
  if path.contains (.char '\x00') then .error .nullCharacter
  else (t.locateWritten directory path).mapError fun e => .system e path

/-- What is at a path from the root. Where nothing can be, nothing is, but whatever else the system
says is an error. -/
def probe (t : FileTree) (p : Path) : Except FileFault (Option Node) :=
  match t.lookUp ⟨.root, []⟩ p.toText with
  | .ok (_, node) => .ok (some node)
  | .error .nullCharacter => .ok none
  | .error (.system e path) => if e.isAbsence then .ok none else .error (.system e path)

def isFile (t : FileTree) (p : Path) : Except FileFault Bool :=
  (t.probe p).map fun
    | some (.file _) => true
    | _ => false

def setNode (t : FileTree) (place : Place) (node : Node) : FileTree :=
  if place.isEmpty then t else { t with nodes := t.nodes.set place node }

def wayTo (place : Place) : List Place := (List.range place.length).map fun n => place.take (n + 1)

def makeDirectories (t : FileTree) (place : Place) : FileTree :=
  (wayTo place).foldl (fun t p => if (t.node? p).isSome then t else t.setNode p .directory) t

def putFile (t : FileTree) (place : Place) (content : Octets) : FileTree :=
  (t.makeDirectories place.dropLast).setNode place (.file content)

def remove (t : FileTree) (place : Place) : FileTree :=
  { t with nodes := t.nodes.filter fun (p, _) => !place.isPrefixOf p }

def read (t : FileTree) (directory : Path) (path : Text) : Except FileFault Octets :=
  match t.lookUp directory path with
  | .ok (_, .file content) => .ok content
  | .ok (_, .directory) => .error (.system .isADirectory path)
  | .error fault => .error fault

def obstacle? (t : FileTree) (place p : Place) : Option FileFault :=
  let path := Path.ofPlace (place.take (p.length + 1))
  match t.node? p with
  | some (.file _) => some (.system (if p = place then .exists else .notADirectory) path)
  | _ => (t.barred? p).map fun e => .system e path

/-- Make sure that there is a directory at a place, making those above it too. A directory that is
there already but not looked into is no success, since nothing could be kept in it. -/
def ensureDirectory (t : FileTree) (place : Place) : Except FileFault FileTree :=
  match (wayTo place).findSome? (t.obstacle? place) with
  | none => .ok (t.makeDirectories place)
  | some fault => .error fault

def write (t : FileTree) (place : Place) (content : Octets) : Except FileFault FileTree :=
  match t.node? place with
  | some .directory => .error (.system .isADirectory (Path.ofPlace place))
  | _ => .ok (t.setNode place (.file content))

end FileTree
end JsonnetPreview
