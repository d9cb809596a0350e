import Bindery.Profile.Basic
import Bindery.Text.Replace

/-!
# Which changes are seen

A session watches its project. What it writes there itself, installed packages and hidden files are
none of its business: a change to them starts no build.
-/

namespace Bindery

/-- A rule about paths that are not watched. -/
inductive IgnoreRule where
  /-- Paths below the root whose text ends so. -/
  | ending (suffix : String)
  /-- A path below the root and all that lies below it. -/
  | below (path : String)
  deriving DecidableEq, Repr

namespace IgnoreRule

/-- The rule that a text states: a star begins an ending, all else is a path. -/
def ofText (text : String) : IgnoreRule :=
  match text.toList with
  | '*' :: suffix => .ending (String.ofList suffix)
  | _ => .below text

/-- Whether the rule holds for a path, given relative to the root. -/
def covers (relative : String) : IgnoreRule → Bool
  | .ending suffix => suffix.toList.isSuffixOf relative.toList
  | .below path => Path.isBelow path relative

end IgnoreRule

namespace Watch

/-- A component with a point in front of its name. -/
def isHidden : Path.Component → Bool
  | .name text => text.toList.head? = some '.'
  | _ => false

/-- Whether a change to a path is of no interest. Nothing outside of the root is. -/
def ignores (root : String) (patterns : List String) (path : String) : Bool :=
  match Path.relativeText? root path with
  | none => true
  | some relative =>
    patterns.any (fun text => (IgnoreRule.ofText text).covers relative)
      || (Path.components relative).any isHidden

/-- What a session of a profile does not watch: packages, source maps, and the places where it
writes, as far as they lie below the root. -/
def ignorePatterns (p : Profile) : List String :=
  let manifest := p.manifestPath?.map (Path.join p.root)
  let generated := [p.outputDirectory] ++ manifest.toList
  ["node_modules", "*.map"]
    ++ (generated.filterMap (Path.relativeText? p.root)).filter (· != "")

end Watch

end Bindery
