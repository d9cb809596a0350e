import Bindery.Scan.Imports
import Bindery.Text.Utf8
import Bindery.Digest.Blake3
import Bindery.Json.Quoted

/-!
# Modules

A module is a source with its imports. It never changes once it has been read.
-/

namespace Bindery

/-- A loaded module. -/
structure Module where
  id : ModuleId
  path : String
  kind : SourceKind
  source : ByteArray
  imports : List Import
  /-- The digest of the source. -/
  hash : String
  /-- The script writes to a property of the global object. -/
  hasGlobalState : Bool
  /-- Stands in for a module that could not be found. -/
  isStub : Bool

namespace Module

/-- Classifies a source by the extension of its id and searches it for imports. A script or style
sheet that is not well-formed text has none. -/
def ofSource (id : ModuleId) (path : String) (source : ByteArray) : Module :=
  let kind := SourceKind.ofExtension id.extension?
  let text? := Text.Utf8.decode? source
  let imports := match kind, text? with
    | .script, some text => Scan.scriptImports text
    | .style, some text => Scan.styleImports text
    | _, _ => []
  let hasGlobalState := match kind, text? with
    | .script, some text => Scan.writesGlobalState text
    | _, _ => false
  { id, path, kind, source, imports, hash := Digest.blake3 source, hasGlobalState,
    isStub := false }

/-- The script of a stand-in: it throws when it is run. -/
def stubText (specifier : String) : String :=
  "throw new Error(" ++ Json.quote ("Cannot find module '" ++ specifier ++ "'") ++ ");\n"

/-- A stand-in for a specifier that means nothing. -/
def stub (id : ModuleId) (specifier : String) : Module :=
  let source := (stubText specifier).toUTF8
  { id, path := id.text, kind := .script, source, imports := [], hash := Digest.blake3 source,
    hasGlobalState := false, isStub := true }

@[simp] theorem stub_id (id : ModuleId) (specifier : String) : (stub id specifier).id = id := rfl

@[simp] theorem stub_isStub (id : ModuleId) (specifier : String) :
    (stub id specifier).isStub = true := rfl

@[simp] theorem stub_imports (id : ModuleId) (specifier : String) :
    (stub id specifier).imports = [] := rfl

/-- The number of bytes of the source. -/
def size (m : Module) : Nat := m.source.size

/-- The source as text; malformed stretches are replaced. -/
def text (m : Module) : String := Text.Utf8.decodeLossy m.source

/-- The targets of the imports that were found, in source order. -/
def dependencies (m : Module) : List (ModuleId × ImportKind) :=
  m.imports.filterMap fun i => i.resolved.map fun id => (id, i.kind)

end Module

end Bindery
