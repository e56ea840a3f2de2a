import JsonnetPreview.World.Path

namespace JsonnetPreview

inductive SourceKind where
  | jsonnet
  | libsonnet
  | unknown
  deriving DecidableEq, Repr

namespace SourceKind

def name : SourceKind → Text
  | jsonnet => "jsonnet"
  | libsonnet => "libsonnet"
  | unknown => "unknown"

def ofSuffix (suffix : Text) : SourceKind :=
  if suffix = Text.ofString ".jsonnet" || suffix = Text.ofString ".json" then jsonnet
  else if suffix = Text.ofString ".libsonnet" then libsonnet
  else unknown

def ofPath (p : Text) : SourceKind := ofSuffix (Path.ofText p).suffix

def isSupported : SourceKind → Bool
  | unknown => false
  | _ => true

def label : SourceKind → Text
  | libsonnet => "LIBSONNET SOURCE"
  | _ => "JSONNET SOURCE"

end SourceKind
end JsonnetPreview
