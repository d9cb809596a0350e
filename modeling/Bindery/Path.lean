import Bindery.Text.Blank

/-!
# Paths

Paths are texts with `/` between components. A component list forgets repeated separators and
every `.` but a leading one; `clean` also works off every `..` that has something to go back
over. Nothing here looks at files.
-/

namespace Bindery.Path

/-- One step of a path. -/
inductive Component where
  | root
  | here
  | up
  | name (text : String)
  deriving Repr, DecidableEq

/-- The component that a stretch between separators stands for. -/
def Component.ofSegment (segment : String) : Component :=
  if segment = ".." then .up else .name segment

/-- The stretches between separators that are neither empty nor a single point. -/
def segments (path : String) : List String :=
  ((path.toList.splitOn '/').map String.ofList).filter fun s => s != "" && s != "."

/-- A path that begins at the root. -/
def isAbsolute (path : String) : Bool := path.toList.head? = some '/'

/-- A path whose first component is a point. -/
def startsHere (path : String) : Bool :=
  match path.toList with
  | ['.'] => true
  | '.' :: '/' :: _ => true
  | _ => false

/-- The components of a path. -/
def components (path : String) : List Component :=
  let names := (segments path).map Component.ofSegment
  if isAbsolute path then .root :: names
  else if startsHere path then .here :: names
  else names

/-- Texts with a slash between them. -/
def slashed : List String → String
  | [] => ""
  | [s] => s
  | s :: r => s ++ "/" ++ slashed r

/-- The text of a component. -/
def Component.text : Component → String
  | .root => ""
  | .here => "."
  | .up => ".."
  | .name s => s

/-- The path with the given components. -/
def ofComponents : List Component → String
  | [.root] => "/"
  | cs => slashed (cs.map Component.text)

/-- Adds a component to a cleaned path, whose components are given last first. -/
def step (done : List Component) : Component → List Component
  | .here => done
  | .up =>
    match done with
    | .root :: _ => done
    | .name _ :: r => r
    | _ => .up :: done
  | c => c :: done

/-- The components of the cleaned path. -/
def cleanComponents (cs : List Component) : List Component := (cs.foldl step []).reverse

/-- The shortest path with the same meaning, as far as the text alone can tell: no repeated
separators, no `.`, no `..` but leading ones. The empty path becomes `.`. -/
def clean (path : String) : String :=
  match cleanComponents (components path) with
  | [] => "."
  | cs => ofComponents cs

/-- Continues a path; an absolute continuation replaces it. -/
def join (base path : String) : String :=
  if isAbsolute path then path
  else if base = "" then path
  else if base.toList.getLast? = some '/' then base ++ path
  else base ++ "/" ++ path

/-- The path without its last component; the root and the empty path have none. -/
def parent? (path : String) : Option String :=
  match (components path).getLast? with
  | none => none
  | some .root => none
  | some _ => some (ofComponents (components path).dropLast)

/-- The end of a path, read from its back, without separators and points that mean nothing. -/
def dropTrailing : List Char → List Char
  | ['/'] => ['/']
  | '/' :: r => dropTrailing r
  | '.' :: '/' :: r => if r = [] then ['/'] else dropTrailing r
  | cs => cs

/-- The text of a path before its last component, as it was written. -/
def parentText (path : String) : String :=
  let name := dropTrailing path.toList.reverse
  String.ofList (dropTrailing (name.dropWhile (· != '/'))).reverse

/-- The name at the end of a path. -/
def fileName? (path : String) : Option String :=
  match (components path).getLast? with
  | some (.name s) => some s
  | _ => none

/-- Cuts a file name at its last point. A name whose only point is its first character has no
extension. -/
def splitName (name : String) : String × Option String :=
  let r := name.toList.reverse
  match r.dropWhile (· != '.') with
  | [] => (name, none)
  | [_] => (name, none)
  | _ :: stem => (String.ofList stem.reverse, some (String.ofList (r.takeWhile (· != '.')).reverse))

/-- The file name without its extension. -/
def fileStem? (path : String) : Option String := (fileName? path).map fun n => (splitName n).1

/-- The extension of the file name, without its point. -/
def extension? (path : String) : Option String := (fileName? path).bind fun n => (splitName n).2

/-- The components behind a leading part. -/
def stripComponents? : (base path : List Component) → Option (List Component)
  | [], r => some r
  | _ :: _, [] => none
  | b :: base, c :: r => if b = c then stripComponents? base r else none

/-- The part of a path below a base; components are compared, not text. -/
def stripBase? (base path : String) : Option String :=
  (stripComponents? (components base) (components path)).map ofComponents

/-- What is left of the stretches between separators behind some names. -/
def behindNames : (names : Nat) → List (List Char) → List (List Char)
  | 0, stretches => stretches.dropWhile isIdle
  | n + 1, stretches => behindNames n (stretches.dropWhile isIdle).tail
where
  isIdle (stretch : List Char) : Bool := stretch = [] || stretch = ['.']

/-- The part of a path below a base, as it was written but for separators and points at its ends
that mean nothing. -/
def relativeText? (base path : String) : Option String :=
  match components base, stripComponents? (components base) (components path) with
  | _, none => none
  | [], some _ => some (String.ofList (dropTrailing path.toList.reverse).reverse)
  | _ :: _, some _ =>
    let rest := behindNames (segments base).length (path.toList.splitOn '/')
    some (String.ofList (dropTrailing (List.intercalate ['/'] rest).reverse).reverse)

/-- Whether the components of the base begin those of the path. -/
def isBelow (base path : String) : Bool :=
  (stripComponents? (components base) (components path)).isSome

end Bindery.Path
