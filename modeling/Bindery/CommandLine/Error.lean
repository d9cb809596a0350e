import Bindery.Bundle.Error

/-!
# Why a command failed

Errors of the project's own parts are passed on; the rest concerns how a command was started. What
is shown to the user, and the exit status, follow from the cause.
-/

namespace Bindery

/-- Why a command failed. -/
inductive CommandError where
  | config (cause : ConfigError)
  | build (cause : BuildError)
  | invalidArgument (detail : String)
  | directoryNotFound (path : String)
  | io (detail : String)
  | watch (detail : String)
  | custom (detail : String)

namespace CommandError

def message : CommandError → String
  | .config cause => "Configuration error: " ++ cause.message
  | .build cause => "Build failed: " ++ cause.message
  | .invalidArgument detail => "Invalid argument: " ++ detail
  | .directoryNotFound path => "Directory not found: " ++ path
  | .io detail => "I/O error: " ++ detail
  | .watch detail => "File watcher error: " ++ detail
  | .custom detail => detail

/-- The exit status: what the user got wrong when starting the command is told apart. -/
def exitCode : CommandError → Nat
  | .invalidArgument _ => 2
  | .directoryNotFound _ => 2
  | .config (.notFound _) => 2
  | _ => 1

/-- The text that is shown. The errors of a build speak for themselves. -/
def report : CommandError → String
  | .build cause => cause.message
  | e => e.message

/-- The code under which an error is documented. -/
def code? : CommandError → Option String
  | .build cause => some cause.code
  | _ => none

/-- What the user can do about an error. -/
def help? : CommandError → Option String
  | .build cause => cause.help?
  | .config _ => some "Check sheaf.toml and any SHEAF_ environment variables"
  | .watch _ => some "The development session needs a readable project directory"
  | _ => none

end CommandError

end Bindery
