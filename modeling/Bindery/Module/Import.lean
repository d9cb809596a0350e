import Bindery.Module.Id

/-!
# Imports

An import is a specifier as it stands in a source, the way in which it is used, and, once it has
been looked up, the module that it means.
-/

namespace Bindery

/-- How an import reaches its target. -/
inductive ImportKind where
  /-- Loaded together with its importer. -/
  | static
  /-- Exported again by its importer. -/
  | reExport
  /-- Loaded when asked for: the target starts a part of its own. -/
  | dynamic
  /-- A reference from a style sheet to a resource. -/
  | url
  deriving DecidableEq, Repr

/-- Every import but a dynamic one is loaded with its importer. -/
def ImportKind.isStatic (k : ImportKind) : Bool := k != .dynamic

/-- One import of a module. -/
structure Import where
  specifier : String
  kind : ImportKind
  resolved : Option ModuleId := none
  deriving DecidableEq, Repr

/-- What a source is, by the extension of its file. -/
inductive SourceKind where
  | script
  | style
  /-- Anything that is not searched for imports. -/
  | resource
  deriving DecidableEq, Repr

/-- The kind that an extension means; case does not matter. -/
def SourceKind.ofExtension (extension : Option String) : SourceKind :=
  match extension.map fun e => String.ofList (e.toList.map Char.toLower) with
  | some "js" => .script
  | some "jsx" => .script
  | some "ts" => .script
  | some "tsx" => .script
  | some "mjs" => .script
  | some "cjs" => .script
  | some "json" => .script
  | some "css" => .style
  | _ => .resource

end Bindery
