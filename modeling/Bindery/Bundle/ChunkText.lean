import Bindery.Bundle.Chunk
import Bindery.Bundle.Loader
import Bindery.Bundle.Transform
import Bindery.Engine.Builtin

/-!
# The text of a chunk

A chunk becomes a script, a style sheet or both. What it becomes depends on its own modules only,
never on other chunks or on file names, so a chunk changes only when one of its modules does.
-/

namespace Bindery

/-- The text of a chunk. -/
structure ChunkText where
  name : String
  /-- Absent when no module is a script and no entry is started. -/
  script : Option String
  /-- The style sheets of the modules, one behind the other. -/
  style : Option String
  /-- The sources of the modules in the script. -/
  sources : List (ModuleId × String)
  deriving DecidableEq, Repr

namespace ChunkText

/-- What of a profile shows in the text of a chunk. -/
structure Settings where
  /-- Style sheets are kept out of scripts. -/
  extractStyles : Bool
  /-- Bodies carry their own addresses. -/
  addressed : Bool
  mode : Mode

def Settings.ofProfile (p : Profile) : Settings :=
  { extractStyles := p.has .extractCss, addressed := p.sourceMap == .evalSourceMap
    mode := p.mode }

/-- What scripts ask to learn how they were built. -/
def modeVariable : String := "process.env.NODE_ENV"

/-- What a module adds to its chunk. -/
inductive Part where
  | script (body : String)
  | style (text : String)
  deriving DecidableEq, Repr

/-- What the code of a module adds. A style sheet that may not stay one becomes a script that adds
it to the page. -/
def part (s : Settings) (id : ModuleId) (kind : ContentKind) (code : String) : Part :=
  match kind with
  | .style =>
    if s.extractStyles then .style ("/* " ++ id.text ++ " */\n" ++ Loader.terminated code)
    else .script (Engine.injectStyle id code)
  | .script => .script (Text.replace code modeVariable (Json.quote s.mode.name))

/-- The parts of a chunk, in the order of its modules. Copies and modules without output add
nothing. -/
def parts (s : Settings) (outputs : ModuleOutputs) (ids : List ModuleId) :
    List (ModuleId × Part) :=
  ids.filterMap fun id =>
    match outputs.get? id with
    | some (.code kind code) => some (id, part s id kind code)
    | _ => none

/-- What the specifiers of a module mean; of equal ones the last counts. -/
def dependencyMap (g : ModuleGraph) (id : ModuleId) : Json :=
  let imports := ((g.module? id).map Module.imports).getD []
  (Json.obj (imports.filterMap fun i => i.resolved.map fun t => (i.specifier, .str t.text))).sortKeys

/-- The definition of a module. -/
def definition (s : Settings) (g : ModuleGraph) (id : ModuleId) (body : String) : String :=
  Loader.definition id (dependencyMap g id)
    (if s.addressed then Loader.addressed id body else Loader.terminated body)

/-- The bodies among some parts. -/
def bodies (parts : List (ModuleId × Part)) : List (ModuleId × String) :=
  parts.filterMap fun
    | (id, .script body) => some (id, body)
    | _ => none

/-- The style sheets among some parts. -/
def sheets (parts : List (ModuleId × Part)) : List String :=
  parts.filterMap fun
    | (_, .style text) => some text
    | _ => none

/-- The modules that a chunk runs. -/
def roots (g : ModuleGraph) (c : Chunk) : List ModuleId :=
  (c.entry.bind fun e => g.entries.lookup e).getD []

/-- The text of a chunk. -/
def ofChunk (s : Settings) (g : ModuleGraph) (outputs : ModuleOutputs) (c : Chunk) : ChunkText :=
  let parts := parts s outputs c.modules
  let bodies := bodies parts
  let script := String.join (bodies.map fun b => definition s g b.1 b.2)
    ++ String.join ((roots g c).map Loader.boot)
  let style := String.join (sheets parts)
  { name := c.name
    script := if script != "" || c.isEntry then some (Loader.prelude ++ script) else none
    style := if style = "" then none else some style
    sources := bodies.filterMap fun b => (g.module? b.1).map fun m => (b.1, m.text) }

end ChunkText

end Bindery
