import Bindery.CommandLine.Arguments

/-!
# How the program is used

The texts for users whose command line was not understood, and for those who ask for help.
-/

namespace Bindery.Usage

/-- The lines about commands and options. -/
def helpLines : List String :=
  [ "Bundle web client entries into content-addressed chunks",
    "",
    "Usage: sheaf [OPTIONS] <COMMAND>",
    "",
    "Commands:",
    "  build  Build every entry once",
    "           -m, --mode <MODE>   Mode to resolve the build profile for [production|development]",
    "               --json          Print the build summary as JSON",
    "  dev    Start the development session",
    "               --no-hot        Always signal a full reload instead of hot updates",
    "               --json          Print each update as a JSON line",
    "  help   Print this message",
    "",
    "Options:",
    "  -v, --verbose         Enable verbose logging",
    "  -q, --quiet           Suppress all output except errors",
    "      --no-color        Disable colored output",
    "  -c, --config <PATH>   Config file",
    "      --cwd <DIR>       Project root",
    "  -h, --help            Print help",
    "  -V, --version         Print version" ]

def version : String := "sheaf 0.1.0"

/-- What is told instead of running a command. -/
def message : UsageError → String
  | .helpWanted => String.intercalate "\n" helpLines
  | .versionWanted => version
  | .nothingGiven => String.intercalate "\n" helpLines
  | .missingCommand => "error: a command is required"
  | .unknownCommand => "error: unrecognized command"
  | .unknownArgument => "error: unexpected argument"
  | .invalidValue => "error: missing or invalid value"
  | .unwantedValue => "error: unexpected value"
  | .conflict => "error: arguments cannot be used together"

/-- Whether colors are used: a wish not to have them comes first, then one to have them. -/
def isColored (noColor : Bool) (vars : List (String × String)) (isTerminal : Bool) : Bool :=
  if noColor || (vars.lookup "NO_COLOR").isSome then false
  else (vars.lookup "FORCE_COLOR").isSome || isTerminal

/-- What is shown about a command that failed. -/
def failureText (report : String) (help? : Option String) : String :=
  "Error: " ++ report ++ "\n" ++ (match help? with
    | some help => "  help: " ++ help ++ "\n"
    | none => "")

end Bindery.Usage
