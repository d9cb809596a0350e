import Bindery.CommandLine.Run
import Bindery.Inspect.Session

/-!
# Looking into commands
-/

namespace Bindery.Inspect

def usageErrorName : UsageError → String
  | .helpWanted => "DisplayHelp"
  | .versionWanted => "DisplayVersion"
  | .nothingGiven => "DisplayHelpOnMissingArgumentOrSubcommand"
  | .missingCommand => "MissingSubcommand"
  | .unknownCommand => "InvalidSubcommand"
  | .unknownArgument => "UnknownArgument"
  | .invalidValue => "InvalidValue"
  | .unwantedValue => "TooManyValues"
  | .conflict => "ArgumentConflict"

def usageErrorJson (e : UsageError) : Json :=
  .obj [("error", .str (usageErrorName e)), ("exit", nat e.exitCode)]

def subcommandJson : Subcommand → Json
  | .build mode json => .arr [.str "build", .str mode.name, .bool json]
  | .dev noHot json => .arr [.str "dev", .bool noHot, .bool json]

def invocationJson (current : String) (i : Invocation) : Json :=
  let isDevelopment : Json := match i.command with
    | .build mode _ => .bool (mode = .development)
    | .dev _ _ => .null
  .obj [("verbose", .bool i.verbose), ("quiet", .bool i.quiet), ("no_color", .bool i.noColor),
    ("root", .str (i.root current)), ("config", optJson str (i.configPath? current)),
    ("command", subcommandJson i.command), ("is_development", isDevelopment)]

def commandErrorName : CommandError → String
  | .config _ => "Config"
  | .build _ => "Build"
  | .invalidArgument _ => "InvalidArgument"
  | .directoryNotFound _ => "DirectoryNotFound"
  | .io _ => "Io"
  | .watch _ => "Watch"
  | .custom _ => "Custom"

/-- Whether the wording of an error is made elsewhere and not shown. -/
def hasForeignWording : CommandError → Bool
  | .config (.invalidValue _) => true
  | .config (.invalidPattern _ _) => true
  | _ => false

def commandErrorJson (e : CommandError) : Json :=
  let shown (text : String) : Json := if hasForeignWording e then .null else .str text
  .obj [("error", .str (commandErrorName e)), ("exit", nat e.exitCode),
    ("message", shown e.message), ("report", shown e.report), ("code", optJson str e.code?),
    ("help", optJson str e.help?)]

end Bindery.Inspect
