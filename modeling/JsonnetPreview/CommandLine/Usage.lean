import JsonnetPreview.CommandLine.Switch
import JsonnetPreview.Preview.Reformat
import JsonnetPreview.Text.Basic
import JsonnetPreview.Text.Quoted

namespace JsonnetPreview.CommandLine

inductive UsageError where
  | ambiguous (word : Text) (candidates : List Switch)
  | missingValue (s : Switch)
  /-- A value was given to an option that takes none. -/
  | ignoredValue (s : Switch) (value : Text)
  | unknownFormat (value : Text)
  | unrecognized (words : List Text)
  deriving DecidableEq, Repr

def aboutSwitch (s : Switch) (message : Text) : Text := "argument " ++ s.title ++ ": " ++ message

def UsageError.message : UsageError → Text
  | ambiguous word candidates =>
    "ambiguous option: " ++ word ++ " could match " ++
      Text.joinWith ", " (candidates.map Switch.written)
  | missingValue s => aboutSwitch s "expected one argument"
  | ignoredValue s value => aboutSwitch s ("ignored explicit argument " ++ Text.quoted value)
  | unknownFormat value =>
    aboutSwitch .format
      ("invalid choice: " ++ Text.quoted value ++ " (choose from " ++
        Text.joinWith ", " (OutputFormat.all.map fun f => Text.quoted f.name) ++ ")")
  | unrecognized words => "unrecognized arguments: " ++ Text.joinWith " " words

def programName : Text := "jsonnetpeek"

def version : Text := "0.1.0"

def asLines (ls : List Text) : Text := ls.flatMap fun l => l ++ [CodePoint.char '\n']

def usage : Text :=
  asLines
    ["usage: jsonnetpeek [-h] [-f \x7bjson,yaml\x7d] [-J DIR] [-V KEY=VALUE] [-y]",
     "                   [--check] [-v]",
     "                   [files ...]"]

def help : Text :=
  usage ++ asLines
    ["",
     "jsonnetpeek: live Jsonnet preview with inline diagnostics",
     "",
     "positional arguments:",
     "  files                 Jsonnet files to preview (t cycles between them)",
     "",
     "options:",
     "  -h, --help            show this help message and exit",
     "  -f \x7bjson,yaml\x7d, --format \x7bjson,yaml\x7d",
     "                        Preview output format",
     "  -J DIR, --jpath DIR   Additional library search path (repeatable)",
     "  -V KEY=VALUE, --ext-str KEY=VALUE",
     "                        External string variable (repeatable)",
     "  -y, --yaml-stream     Render a '---' separated document stream",
     "  --check               Render once and print the preview or diagnostics",
     "                        instead of starting the UI",
     "  -v, --verbose         Log debug output"]

end JsonnetPreview.CommandLine
