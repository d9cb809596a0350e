import Bindery.Project
import Bindery.Module.Id
import Bindery.Json.Skip
import Bindery.Text.Utf8

/-!
# Looking up specifiers

A relative or rooted specifier names a candidate. A candidate is tried as it is, then with each
extension behind it, then as a directory with an index file. Any other specifier names a package,
which is looked for in the package directories from the importer's directory up to the root.
-/

namespace Bindery

/-- Where and how specifiers are looked up. -/
structure Lookup where
  root : String
  extensions : List String

namespace Lookup

/-- The specifier without its query and fragment. -/
def stripQuery (specifier : String) : String :=
  String.ofList (specifier.toList.takeWhile fun c => c != '?' && c != '#')

/-- A specifier that starts from the directory of its importer. -/
def isRelative (specifier : String) : Bool :=
  specifier = "." || specifier = ".."
    || "./".toList.isPrefixOf specifier.toList || "../".toList.isPrefixOf specifier.toList

/-- The candidate itself, the candidate with an extension, or an index file in it. -/
def candidates (l : Lookup) (p : Project) (candidate : String) : List String :=
  candidate :: l.extensions.map (candidate ++ ·)
    ++ (if p.has candidate then l.extensions.map fun e => Path.join candidate ("index" ++ e)
      else [])

/-- The first candidate that is a file. -/
def probe? (l : Lookup) (p : Project) (candidate : String) : Option String :=
  (l.candidates p candidate).find? p.isFile

/-- The two fields of a package description that are read, each once it has been met. -/
structure Fields where
  module : Option (Option String) := none
  main : Option (Option String) := none

/-- A text or null at the start of a text. -/
def optionalText? (cs : Json.Marked) : Option (Option String × Json.Marked) :=
  match Json.skipBlanks cs with
  | some 'n' :: r => (Json.skipWord? ['u', 'l', 'l'] r).map (none, ·)
  | some '"' :: r =>
    (Json.take? (Json.unquoteBody []) r).map fun (s, q) => (some (String.ofList s), q)
  | _ => none

/-- A field is read where it has not been met before. -/
def once? (seen : Option (Option String)) (cs : Json.Marked) :
    Option (Option (Option String) × Json.Marked) :=
  if seen.isSome then none else (optionalText? cs).map fun (v, r) => (some v, r)

/-- Reads the value of a member, or passes over it. -/
def fieldValue? (fuel : Nat) (key : String) (seen : Fields) (cs : Json.Marked) :
    Option (Fields × Json.Marked) :=
  if key = "module" then (once? seen.module cs).map fun (v, r) => ({ seen with module := v }, r)
  else if key = "main" then (once? seen.main cs).map fun (v, r) => ({ seen with main := v }, r)
  else (Json.skipValue? fuel cs).map (seen, ·)

/-- Reads the members of an object up to its closing brace. Every step uses one unit of `fuel`. -/
def fields? : (fuel : Nat) → Fields → Json.Marked → Option (Fields × Json.Marked)
  | 0, _, _ => none
  | fuel + 1, seen, cs =>
    match Json.skipBlanks cs with
    | some '"' :: r =>
      match Json.take? (Json.unquoteBody []) r with
      | none => none
      | some (key, r) =>
        match Json.skipBlanks r with
        | some ':' :: r =>
          match fieldValue? fuel (String.ofList key) seen r with
          | none => none
          | some (seen, r) =>
            match Json.skipBlanks r with
            | some ',' :: q => fields? fuel seen q
            | some '\x7d' :: q => some (seen, q)
            | _ => none
        | _ => none
    | _ => none

/-- Both fields in turn, written as an array. -/
def fieldPair? (cs : Json.Marked) : Option (Fields × Json.Marked) := do
  let (module, r) ← optionalText? cs
  match Json.skipBlanks r with
  | some ',' :: r =>
    let (main, r) ← optionalText? r
    match Json.skipBlanks r with
    | some ']' :: q => some ({ module := some module, main := some main }, q)
    | _ => none
  | _ => none

/-- Reads the description of a package. -/
def description? (cs : Json.Marked) : Option (Fields × Json.Marked) :=
  match Json.skipBlanks cs with
  | some '\x7b' :: r =>
    match Json.skipBlanks r with
    | some '\x7d' :: q => some ({}, q)
    | q => fields? (2 * cs.length + 1) {} q
  | some '[' :: r => fieldPair? r
  | _ => none

/-- The main file that the description of a package names: its `module` field, or else its `main`
field. Other members are passed over. A description that is not well formed names none. -/
def mainField? (bytes : ByteArray) : Option String := do
  let (fields, rest) ← description? (Text.Utf8.decodeEach bytes.toList)
  if (Json.skipBlanks rest).isEmpty then fields.module.join.or fields.main.join else none

/-- The file that a package directory names as its main file. -/
def packageMain? (l : Lookup) (p : Project) (directory : String) : Option String := do
  let bytes ← p.read? (Path.join directory "package.json")
  let main ← mainField? bytes
  l.probe? p (Path.clean (Path.join directory main))

/-- A directory, given by its components last first, and those above it up to `stop`. -/
def upward (stop : List Path.Component) : List Path.Component → List (List Path.Component)
  | [] => [[]]
  | c :: r =>
    (c :: r).reverse :: (if (c :: r).reverse = stop || c = .root then [] else upward stop r)

/-- The directories in which packages are looked for, the nearest first. -/
def searchDirectories (l : Lookup) (directory : String) : List String :=
  (upward (Path.components l.root) (Path.components directory).reverse).map Path.ofComponents

/-- Where the package is if it is installed in the directory. -/
def packageIn (directory specifier : String) : String :=
  Path.clean (Path.join (Path.join directory "node_modules") specifier)

/-- The file that a package specifier means. -/
def resolvePackage? (l : Lookup) (p : Project) (specifier directory : String) : Option String :=
  (l.searchDirectories directory).findSome? fun dir =>
    let candidate := packageIn dir specifier
    (l.probe? p candidate).or (l.packageMain? p candidate)

/-- A file whose references are relative even where they do not look so. -/
def isStyleSheet (path : String) : Bool := Path.extension? path = some "css"

/-- The specifier as it is looked up: a leading tilde, which marks packages in style sheets, does
not count. -/
def wanted (specifier : String) : String :=
  let stripped := stripQuery specifier
  match stripped.toList with
  | '~' :: r => String.ofList r
  | _ => stripped

/-- What stands behind a leading slash. -/
def rooted? (wanted : String) : Option String :=
  match wanted.toList with
  | '/' :: r => some (String.ofList r)
  | _ => none

/-- The directory from which a file is looked up; without an importer it is the root. -/
def directoryOf (l : Lookup) (importer : Option String) : String :=
  (importer.bind Path.parent?).getD l.root

/-- The file that a specifier means in the file at `importer`; without an importer it is seen
from the root. -/
def resolve? (l : Lookup) (p : Project) (specifier : String) (importer : Option String) :
    Option String :=
  let wanted := wanted specifier
  if wanted = "" then none
  else
    match rooted? wanted with
    | some path => l.probe? p (Path.clean (Path.join l.root path))
    | none =>
      let directory := l.directoryOf importer
      let near := l.probe? p (Path.clean (Path.join directory wanted))
      if isRelative wanted || importer.isNone then near
      else if importer.any isStyleSheet then near.or (l.resolvePackage? p wanted directory)
      else l.resolvePackage? p wanted directory

end Lookup

end Bindery
