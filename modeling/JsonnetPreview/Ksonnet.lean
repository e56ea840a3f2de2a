import JsonnetPreview.World.FileTree

namespace JsonnetPreview.Ksonnet

def componentsName : Text := "components"

def appFile : Text := "app.yaml"

def parametersFile : Text := "params.libsonnet"

/-- The root of the app that a directory belongs to; the directory is given by its parts, the last
one first. The nearest directory of components decides. -/
def rootAbove (files : FileTree) (anchor : Anchor) : List Text → Except FileFault (Option Path)
  | [] => .ok none
  | name :: above =>
    if name = componentsName then
      let root : Path := ⟨anchor, above.reverse⟩
      (files.isFile (root.join [appFile])).map fun
        | true => some root
        | false => none
    else rootAbove files anchor above

def folderOf (directory : Path) (file : Text) : Path :=
  (Path.absolute directory (Path.ofText file)).parent

def findRoot (files : FileTree) (directory : Path) (file : Text) :
    Except FileFault (Option Path) :=
  let folder := folderOf directory file
  rootAbove files folder.anchor folder.parts.reverse

def isInApp (files : FileTree) (directory : Path) (file : Text) : Except FileFault Bool :=
  (findRoot files directory file).map Option.isSome

def rootText (files : FileTree) (directory : Path) (file : Text) : Except FileFault Text :=
  (findRoot files directory file).map fun
    | none => []
    | some root => root.toText

def importsIn (root directory : Path) (file : Text) : List (Text × Text) :=
  [("__ksonnet/params", ((folderOf directory file).join [parametersFile]).toText),
   ("__ksonnet/environments",
     (root.join [Text.ofString "environments", Text.ofString "default", parametersFile]).toText)]

/-- What a file imports by name; outside an app that is nothing. -/
def imports (files : FileTree) (directory : Path) (file : Text) :
    Except FileFault (List (Text × Text)) :=
  (findRoot files directory file).map fun
    | none => []
    | some root => importsIn root directory file

end JsonnetPreview.Ksonnet
