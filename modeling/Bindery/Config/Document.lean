import Bindery.Config.Environment
import Bindery.Config.Layer
import Bindery.Config.Toml
import Bindery.Profile.Basic
import Bindery.Profile.Error
import Bindery.Project
import Bindery.Text.Utf8

/-!
# Configuration documents

A document holds a base layer and one layer for each mode. It is read from a file, possibly with
settings of the environment on top, and its root is then anchored at the directory of the project.
-/

namespace Bindery

/-- The layers of a project. -/
structure Configuration where
  base : Layer := {}
  development : Layer := {}
  production : Layer := {}
  deriving BEq, Repr

namespace Configuration

/-- The file names that are looked for, in order. -/
def fileNames : List String := ["sheaf.toml", "sheaf.json"]

/-- The layers of a value; a section that is absent sets nothing. -/
def ofJson? (v : Json) : Option Configuration := do
  let r ← Config.record? ["base", "development", "production"] v
  return {
    base := ← r.withDefault "base" {} (Config.layer true)
    development := ← r.withDefault "development" {} (Config.layer true)
    production := ← r.withDefault "production" {} (Config.layer true) }

/-- What a document that does not fit is refused with. -/
def unfit : ConfigError := .invalidValue "malformed document"

/-- The layers of a value, or the refusal. -/
def extract (v : Json) : Except ConfigError Configuration :=
  match ofJson? v with
  | some c => .ok c
  | none => .error unfit

/-- The layers of TOML text. Relative roots stay relative. -/
def ofToml (text : String) : Except ConfigError Configuration :=
  match Toml.parse? text with
  | some v => extract v
  | none => .error unfit

/-- The object that a JSON text holds. -/
def jsonObject? (text : String) : Option Json :=
  match Json.parse? text with
  | some (.obj members) => some (Json.obj members).sortKeys
  | _ => none

/-- The value in a file, by the extension of its name. What is no file holds nothing. -/
def readFile (p : Project) (path : String) : Except ConfigError Json :=
  let parsed (parse? : String → Option Json) : Except ConfigError Json :=
    match p.read? path with
    | none => .ok (.obj [])
    | some bytes =>
      match (Text.Utf8.decode? bytes).bind parse? with
      | some v => .ok v
      | none => .error unfit
  match Path.extension? path with
  | some "toml" => parsed Toml.parse?
  | some "json" => parsed jsonObject?
  | other => .error (.unsupportedFormat (other.getD "<none>"))

/-- The first conventional file below a directory. -/
def find? (p : Project) (root : String) : Option String :=
  (fileNames.map (Path.join root)).find? p.isFile

/-- Puts the root of the project below a directory: a relative root is seen from there, and
without one it is the directory itself. -/
def anchor (c : Configuration) (directory : String) : Configuration :=
  let root := match c.base.root with
    | some r => Path.join directory r
    | none => directory
  { c with base := { c.base with root := some root } }

/-- The layers of a project as they are written: those of the file, under those of the environment.
A file that is named must exist; without a name a missing file sets nothing. -/
def read (p : Project) (vars : List (String × String)) (root : String)
    (path : Option String) : Except ConfigError Configuration := do
  let file ← match path with
    | some f => if p.has f then pure (some f) else throw (.notFound f)
    | none => pure (find? p root)
  let settings ← match file with
    | some f => readFile p f
    | none => pure (.obj [])
  extract (Config.mergeJson settings (Config.environmentSettings vars))

/-- The layers of a project, whose root is seen from its directory. -/
def load (p : Project) (vars : List (String × String)) (root : String)
    (path : Option String) : Except ConfigError Configuration := do
  return (← read p vars root path).anchor root

/-- The layers of one file as they are written, without the environment. -/
def readOne (p : Project) (path : String) : Except ConfigError Configuration := do
  if !p.has path then throw (.notFound path)
  extract (← readFile p path)

/-- The layers of one file, whose root is seen from the directory of the file. -/
def ofFile (p : Project) (path : String) : Except ConfigError Configuration := do
  let c ← readOne p path
  return match Path.parent? path with
    | some _ => c.anchor (Path.parentText path)
    | none => c

/-- The layer of a mode. -/
def overrides (c : Configuration) : Mode → Layer
  | .development => c.development
  | .production => c.production

/-- The profile that the layers come to in a mode. -/
def resolve (c : Configuration) (mode : Mode) (flags : EnvFlags) : Profile :=
  Profile.resolve c.base (c.overrides mode) mode flags

end Configuration

end Bindery
