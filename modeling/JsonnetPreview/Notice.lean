import JsonnetPreview.Text.Basic

namespace JsonnetPreview

inductive Level where
  | debug
  | info
  | warning
  | error
  deriving DecidableEq, Repr

inductive Notice where
  | noFileInError (message : Text)
  | noRangeInError (message : Text)
  | noFileInFrame (line : Text)
  | noRangeInFrame (line : Text)
  | unreadableConfig (path reason : Text)
  | rendererMissing (name : Text)
  | noFallback (name : Text)
  | refreshFailed (path : Text)
  deriving DecidableEq, Repr

/-- A log entry before its arguments are put into its template. -/
structure LogRecord where
  level : Level
  logger : Text
  template : Text
  arguments : List Text
  deriving DecidableEq, Repr

def Level.name : Level → Text
  | debug => "DEBUG"
  | info => "INFO"
  | warning => "WARNING"
  | error => "ERROR"

def Notice.record : Notice → LogRecord
  | noFileInError m =>
    ⟨.warning, "jsonnetpeek.parsing.diagnostics",
      "Could not parse filename from jsonnet error: %r", [m]⟩
  | noRangeInError m =>
    ⟨.warning, "jsonnetpeek.parsing.diagnostics",
      "Could not parse location range from jsonnet error: %r", [m]⟩
  | noFileInFrame l =>
    ⟨.warning, "jsonnetpeek.parsing.diagnostics",
      "Could not parse filename from jsonnet stack frame: %r", [l]⟩
  | noRangeInFrame l =>
    ⟨.warning, "jsonnetpeek.parsing.diagnostics",
      "Could not parse location range from jsonnet stack frame: %r", [l]⟩
  | unreadableConfig path reason =>
    ⟨.warning, "jsonnetpeek.utils.config", "Ignoring unreadable config %s: %s", [path, reason]⟩
  | rendererMissing name =>
    ⟨.warning, "jsonnetpeek.compiler.driver",
      "Jsonnet executable '%s' not found on PATH.", [name]⟩
  | noFallback name =>
    ⟨.warning, "jsonnetpeek.compiler.driver",
      "Cannot fall back: '%s' not found on PATH", [name]⟩
  | refreshFailed path =>
    ⟨.error, "jsonnetpeek.engine", "Refresh failed for %s", [path]⟩

end JsonnetPreview
