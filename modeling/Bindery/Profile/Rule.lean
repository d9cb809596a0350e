import Bindery.Pattern.Compiled
import Bindery.Json.Basic

/-!
# Rules

Which modules go through which engines, which are copied as they are, and which are gathered in a
chunk of their own. Rules match the text of module ids.
-/

namespace Bindery

/-- An engine to apply, with the options it is given. -/
structure EngineStep where
  engine : String
  options : Json := .null
  deriving BEq, Repr

/-- A chain of engines for the modules that a pattern matches. -/
structure Rule where
  test : Pattern
  exclude : Option Pattern := none
  /-- The engines in order of application. -/
  chain : List EngineStep
  deriving BEq, Repr

/-- A rule applies where the test matches and the exclusion does not. -/
def Rule.applies (r : Rule) (text : String) : Bool :=
  !r.exclude.any (·.isMatch text) && r.test.isMatch text

/-- Modules that are copied under a stable name. -/
structure AssetRule where
  test : Pattern
  /-- The name of the copy; `[name]` and `[ext]` stand for those of the module. -/
  filename : String
  deriving BEq, Repr

/-- Where copies go unless a rule says otherwise. -/
def AssetRule.defaultFilename : String := "fonts/[name].[ext]"

/-- From where a named group may take modules. -/
inductive ChunkScope where
  | all
  /-- Only modules that would be loaded on demand. -/
  | async
  /-- Only modules that are loaded at the start. -/
  | initial
  deriving DecidableEq, Repr

/-- A named group: every module that matches goes into one chunk. -/
structure ChunkGroup where
  name : String
  test : Pattern
  chunks : ChunkScope := .all
  deriving BEq, Repr

/-- An external program that is used as an engine. -/
structure EngineCommand where
  command : String
  args : List String := []
  timeoutMs : Option Nat := none
  deriving DecidableEq, Repr

/-- How scripts lead back to their sources. -/
inductive SourceMapStrategy where
  | none
  /-- A file beside each script. -/
  | sourceMap
  /-- Annotations inside of the script. -/
  | evalSourceMap
  deriving DecidableEq, Repr

end Bindery
