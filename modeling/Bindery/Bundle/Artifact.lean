import Bindery.Bundle.ChunkText
import Bindery.Bundle.FileName
import Bindery.Bundle.SourceMap

/-!
# Artifacts

What a build writes, file by file, before anything is written.
-/

namespace Bindery

/-- What a file is. -/
inductive ArtifactKind where
  | script
  | style
  | sourceMap
  | asset
  deriving DecidableEq, Repr

/-- The word for a kind in a manifest. -/
def ArtifactKind.name : ArtifactKind → String
  | .script => "script"
  | .style => "style"
  | .sourceMap => "source-map"
  | .asset => "asset"

/-- A file to be written. -/
structure Artifact where
  /-- The path below the output directory. -/
  file : String
  kind : ArtifactKind
  /-- The chunk it was made from; copies are made from none. -/
  chunk : Option String
  fingerprint : Option String
  bytes : ByteArray

namespace Artifact

def size (a : Artifact) : Nat := a.bytes.size

/-- The file of a style sheet. -/
def ofStyle (chunk : String) (hashed : Bool) (style : String) : Artifact :=
  let bytes := style.toUTF8
  { file := FileName.ofChunk chunk .style bytes hashed
    kind := .style
    chunk := some chunk
    fingerprint := if hashed then some (FileName.fingerprint bytes) else none
    bytes }

/-- The files of a script: its source map comes first. The line that leads to the map does not
count for the name of the script. -/
def ofScript (chunk : Chunk) (hashed sourceMaps : Bool) (sources : List (ModuleId × String))
    (script : String) : List Artifact :=
  let bytes := script.toUTF8
  let role := if chunk.isEntry then FileName.Role.entryScript else .chunkScript
  let file := FileName.ofChunk chunk.name role bytes hashed
  let fingerprint := if hashed then some (FileName.fingerprint bytes) else none
  if sourceMaps then
    let map := FileName.sourceMap file
    [ { file := map
        kind := .sourceMap
        chunk := some chunk.name
        fingerprint := none
        bytes := (SourceMap.ofScript file script sources).text.toUTF8 },
      { file
        kind := .script
        chunk := some chunk.name
        fingerprint
        bytes := (script ++ "//# sourceMappingURL=" ++ FileName.base map ++ "\n").toUTF8 } ]
  else [{ file, kind := .script, chunk := some chunk.name, fingerprint, bytes }]

/-- The files of a chunk, its style sheet first. -/
def ofChunk (chunk : Chunk) (text : ChunkText) (hashed sourceMaps : Bool) : List Artifact :=
  (text.style.map (ofStyle chunk.name hashed)).toList
    ++ ((text.script.map (ofScript chunk hashed sourceMaps text.sources)).getD [])

/-- Adds a copy unless a copy of its name is there. -/
def addAsset (done : List Artifact) (output : ModuleOutput) : List Artifact :=
  match output with
  | .asset file bytes =>
    if done.any (·.file = file) then done
    else done ++ [{ file, kind := .asset, chunk := none, fingerprint := none, bytes }]
  | .code _ _ => done

/-- The copies in the order of module ids. Of copies with the same name only the first counts. -/
def assets (outputs : ModuleOutputs) : List Artifact :=
  (outputs.map (·.2)).foldl addAsset []

end Artifact

end Bindery
