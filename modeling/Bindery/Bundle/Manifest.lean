import Bindery.Bundle.Artifact
import Bindery.Bundle.Output

/-!
# The manifest

The manifest tells a server which files the page of an entry needs. Files that are needed from the
start are marked and are to be loaded in the order in which they are listed.
-/

namespace Bindery

/-- A file as the manifest lists it. -/
structure ManifestFile where
  /-- The address of the file. -/
  path : String
  /-- The file is needed from the start. -/
  isEntryPoint : Bool
  kind : ArtifactKind
  deriving DecidableEq, Repr

/-- The files of each entry, in the order in which the entries are declared. -/
abbrev Manifest := List (String × List ManifestFile)

namespace Manifest

/-- The script and style files of a chunk, style sheets first, so that they are fetched first. -/
def filesOf (artifacts : List Artifact) (chunk : String) : List Artifact :=
  let mine := artifacts.filter fun a => a.chunk = some chunk
  mine.filter (·.kind = .style) ++ mine.filter (·.kind = .script)

/-- The names of the copies that an entry can reach, in order, each once. -/
def copiesOf (g : ModuleGraph) (outputs : ModuleOutputs) (roots : List ModuleId) : List String :=
  let names := (g.fullClosure roots).filterMap fun id =>
    match outputs.get? id with
    | some (.asset file _) => some file
    | _ => none
  (names.mergeSort fun a b => a ≤ b).eraseReps

/-- The files of one entry. -/
def ofEntry (g : ModuleGraph) (chunks : ChunkSet) (artifacts : List Artifact)
    (outputs : ModuleOutputs) (publicPath entry : String) : List ManifestFile :=
  let code := (chunks.forEntry g entry).flatMap fun (i, eager) =>
    (filesOf artifacts ((chunks.map (·.name)).getD i "")).map fun a =>
      { path := publicPath ++ a.file, isEntryPoint := eager, kind := a.kind : ManifestFile }
  let copies := (copiesOf g outputs ((g.entries.lookup entry).getD [])).map fun file =>
    { path := publicPath ++ file, isEntryPoint := false, kind := .asset : ManifestFile }
  code ++ copies

/-- The manifest for some entries. An entry without files is listed as well. -/
def ofBuild (entries : List String) (g : ModuleGraph) (chunks : ChunkSet)
    (artifacts : List Artifact) (outputs : ModuleOutputs) (publicPath : String) : Manifest :=
  entries.map fun entry => (entry, ofEntry g chunks artifacts outputs publicPath entry)

/-- A listed file as it is stored. -/
def fileJson (f : ManifestFile) : Json :=
  .obj [("path", .str f.path), ("entry_point", .bool f.isEntryPoint), ("kind", .str f.kind.name)]

/-- The manifest as it is stored. -/
def toJson (m : Manifest) : Json := .obj (m.map fun (entry, files) => (entry, .arr (files.map fileJson)))

/-- The text of the manifest. -/
def text (m : Manifest) : String := m.toJson.pretty

/-- Writes the manifest; whoever reads it meanwhile sees either the old or the new one. -/
def write (m : Manifest) (path : String) : OutputM Unit :=
  Output.writeDurably path (m.text ++ "\n").toUTF8

end Manifest

end Bindery
