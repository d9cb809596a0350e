import Bindery.Graph.Error
import Bindery.Profile.Error

/-!
# Why a build failed

A failed build gives one error, which may hold several. Each names its cause; what is told to the
user follows from the cause.
-/

namespace Bindery

/-- Coarse classes of failures, by which each mode decides how to go on. -/
inductive ErrorKind where
  | config
  | resolution
  | transform
  | write
  deriving DecidableEq, Repr

/-- Why a build failed. -/
inductive BuildError where
  | config (cause : ConfigError)
  | resolution (cause : GraphError)
  | unknownTransform (module : ModuleId) (ruleIndex : Nat) (engine : String)
  | transform (module : ModuleId) (engine detail : String)
  | timedOut (module : ModuleId) (engine : String) (timeoutMs : Nat)
  | minify (module : ModuleId) (engine detail : String)
  | invalidOutputPath (detail : String)
  | write (path detail : String)
  | task (detail : String)
  | aggregate (errors : List BuildError)

namespace BuildError

/-- One error for several: none for none, the error itself if it is alone. -/
def ofList : List BuildError → Option BuildError
  | [] => none
  | [e] => some e
  | es => some (.aggregate es)

mutual

def message : BuildError → String
  | .config cause => "Invalid configuration: " ++ cause.message
  | .resolution cause => cause.message
  | .unknownTransform module ruleIndex engine =>
    "Rule #" ++ toString ruleIndex ++ " matching '" ++ module.text
      ++ "' references unknown transform engine '" ++ engine ++ "'"
  | .transform module engine detail =>
    "Transform '" ++ engine ++ "' failed for '" ++ module.text ++ "': " ++ detail
  | .timedOut module engine timeoutMs =>
    "Transform '" ++ engine ++ "' timed out for '" ++ module.text ++ "' after "
      ++ toString timeoutMs ++ "ms"
  | .minify module engine detail =>
    "Minifier '" ++ engine ++ "' failed for '" ++ module.text ++ "': " ++ detail
  | .invalidOutputPath detail => "Invalid output path: " ++ detail
  | .write path detail => "Failed to write '" ++ path ++ "': " ++ detail
  | .task detail => "Build worker failed: " ++ detail
  | .aggregate errors =>
    toString errors.length ++ " errors: " ++ String.intercalate "; " (messages errors)

def messages : List BuildError → List String
  | [] => []
  | e :: r => e.message :: messages r

end

mutual

/-- The class of a failure. Of several, one that no mode can live with decides, else the first. -/
def kind : BuildError → ErrorKind
  | .config _ => .config
  | .resolution _ => .resolution
  | .unknownTransform _ _ _ => .transform
  | .transform _ _ _ => .transform
  | .timedOut _ _ _ => .transform
  | .minify _ _ _ => .transform
  | .task _ => .transform
  | .invalidOutputPath _ => .write
  | .write _ _ => .write
  | .aggregate errors =>
    let ks := kinds errors
    ((ks.find? fun k => k = .config || k = .write).or ks.head?).getD .transform

def kinds : List BuildError → List ErrorKind
  | [] => []
  | e :: r => e.kind :: kinds r

end

/-- The module that an error is about. -/
def module? : BuildError → Option ModuleId
  | .resolution cause => cause.module?
  | .unknownTransform module _ _ => some module
  | .transform module _ _ => some module
  | .timedOut module _ _ => some module
  | .minify module _ _ => some module
  | _ => none

mutual

/-- The single errors in order. -/
def leaves : BuildError → List BuildError
  | .aggregate errors => leavesOf errors
  | e => [e]

def leavesOf : List BuildError → List BuildError
  | [] => []
  | e :: r => e.leaves ++ leavesOf r

end

/-- The code under which an error is documented. -/
def code : BuildError → String
  | .config _ => "sheaf::config"
  | .resolution _ => "sheaf::resolution"
  | .unknownTransform _ _ _ => "sheaf::unknown_transform"
  | .transform _ _ _ => "sheaf::transform"
  | .timedOut _ _ _ => "sheaf::transform_timeout"
  | .minify _ _ _ => "sheaf::minify"
  | .invalidOutputPath _ => "sheaf::invalid_output_path"
  | .write _ _ => "sheaf::write"
  | .task _ => "sheaf::task"
  | .aggregate _ => "sheaf::build_failed"

/-- What the user can do about an error. -/
def help? : BuildError → Option String
  | .config _ => some
    "Check the [base], [development] and [production] sections of sheaf.toml."
  | .resolution (.unresolved specifier _) => some
    ("Check that '" ++ specifier ++ "' exists and the path or package name is spelled correctly.")
  | .unknownTransform _ _ engine => some
    ("Register '" ++ engine ++ "' under [base.engines." ++ engine ++ "] or use a built-in engine "
      ++ "(script, css, css-extract, style-inject, minify).")
  | .timedOut _ _ _ => some
    ("Raise \x60transform_timeout_ms\x60 or the engine's \x60timeout_ms\x60 if the transform is "
      ++ "legitimately slow.")
  | .write _ _ => some "Check disk space and permissions of the output directory."
  | .invalidOutputPath _ => some "Output file names must stay inside the output directory."
  | .aggregate _ => some "Every failing module is listed below."
  | _ => none

/-- The errors that are listed below an error. -/
def related? : BuildError → Option (List BuildError)
  | .aggregate errors => some errors
  | _ => none

end BuildError

end Bindery
