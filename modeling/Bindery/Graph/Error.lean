import Bindery.Module.Id

/-!
# Why a graph could not be built

Every failure names its cause; the wording is in `GraphError.message`.
-/

namespace Bindery

/-- Why a file could not be read. -/
inductive ReadFailure where
  | notFound (path : String)
  | io (detail : String)
  | other (detail : String)
  deriving DecidableEq, Repr

def ReadFailure.message : ReadFailure → String
  | .notFound path => "file not found: " ++ path
  | .io detail => "I/O error: " ++ detail
  | .other detail => "runtime error: " ++ detail

/-- A failure on the way to a graph. -/
inductive GraphError where
  | emptyModuleId
  /-- A specifier that means no file; entries have no importer. -/
  | unresolved (specifier : String) (importer : Option ModuleId)
  | read (path : String) (cause : ReadFailure)
  | task (detail : String)
  deriving DecidableEq, Repr

namespace GraphError

def message : GraphError → String
  | .emptyModuleId => "module id is empty"
  | .unresolved specifier none => "cannot resolve '" ++ specifier ++ "'"
  | .unresolved specifier (some importer) =>
    "cannot resolve '" ++ specifier ++ "' from '" ++ importer.text ++ "'"
  | .read path cause => "failed to read '" ++ path ++ "': " ++ cause.message
  | .task detail => "graph task failed: " ++ detail

/-- A failure that a development build can live with. -/
def isResolution : GraphError → Bool
  | .unresolved _ _ => true
  | _ => false

/-- The module that a failure is reported against. -/
def module? : GraphError → Option ModuleId
  | .unresolved _ importer => importer
  | _ => none

/-- Errors in order of their messages; equal messages keep their order. -/
def sortByMessage (errors : List GraphError) : List GraphError :=
  errors.mergeSort fun a b => a.message ≤ b.message

end GraphError

end Bindery
