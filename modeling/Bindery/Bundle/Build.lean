import Bindery.Bundle.HotUpdate
import Bindery.Bundle.SizeHint
import Bindery.Bundle.Split
import Bindery.Bundle.Stage
import Bindery.Graph.Build
import Bindery.Profile.Check

/-!
# Building

A build reads the modules of a project, transforms them, splits them into chunks and writes the
files made from these. Everything up to the files is worked out before anything is written, so a
build that fails until then leaves what is there alone. What a build came to is a snapshot, and a
later build can go on from it: it reads only modules that were touched and transforms only those
that are affected.
-/

namespace Bindery

/-- Everything that a build made before writing it. -/
structure Bundle where
  graph : ModuleGraph
  outputs : ModuleOutputs
  chunks : ChunkSet
  artifacts : List Artifact
  /-- The difference to the graph before. -/
  changes : ChangeSet
  /-- What went wrong without keeping the build from going on. -/
  warnings : List BuildError

/-- What a build came to. -/
structure Snapshot extends Bundle where
  manifest : Option Manifest
  update : Option HotUpdate
  hints : List SizeHint
  /-- The paths of the files, in the order of the artifacts. -/
  written : List String

/-- What is told about a build. -/
structure BuildSummary where
  mode : Mode
  modules : Nat
  chunks : Nat
  files : List String
  changed : IdSet
  warnings : Nat
  hints : Nat
  deriving DecidableEq, Repr

def Snapshot.summary (s : Snapshot) (mode : Mode) : BuildSummary :=
  { mode
    modules := s.graph.modules.length
    chunks := s.chunks.length
    files := s.artifacts.map (·.file)
    changed := s.changes.changedIds
    warnings := s.warnings.length
    hints := s.hints.length }

/-- The members by which a build is told to other programs. -/
def BuildSummary.members (s : BuildSummary) : List (String × Json) :=
  [("mode", .str s.mode.name), ("modules", .int s.modules), ("chunks", .int s.chunks),
    ("files", .arr (s.files.map Json.str)),
    ("changed", .arr (s.changed.map fun id => .str id.text)), ("warnings", .int s.warnings),
    ("hints", .int s.hints)]

/-- A profile with the engines that its rules may use. -/
structure Bundler where
  profile : Profile
  registry : EngineRegistry

namespace Bundler

/-- A bundler for a profile that is in order. -/
def ofProfile (p : Profile) (registry : EngineRegistry) : Except BuildError Bundler :=
  match p.validate with
  | .ok _ => .ok { profile := p, registry }
  | .error e => .error (.config e)

/-- Whether builds go through a stage. -/
def has (b : Bundler) (s : Stage) : Bool := s.isIn b.profile

def graphBuilder (b : Bundler) : GraphBuilder :=
  { lookup := { root := Path.clean b.profile.root, extensions := b.profile.extensions }
    stubUnresolved := b.profile.isDevelopment }

/-- Errors that a development build goes on with: something could not be found. -/
def isRecoverable (b : Bundler) (e : GraphError) : Bool :=
  b.profile.isDevelopment && e.isResolution

/-- Makes one script smaller. -/
def minifyScript (b : Bundler) (name : String) (engine : Engine) (id : ModuleId)
    (code : String) : Except BuildError ModuleOutput :=
  match engine.apply
      { module := id, code, kind := .script, options := .null, mode := b.profile.mode } with
  | .done out => .ok (.code out.kind out.code)
  | .failed e => .error (.minify id name e.message)
  | .hangs =>
    let limit := engine.timeoutMs.getD b.profile.transformTimeoutMs
    .error (.minify id name ("timed out after " ++ toString limit ++ "ms"))

/-- The scripts among some outputs. -/
def scripts (outputs : ModuleOutputs) : List (ModuleId × String) :=
  outputs.filterMap fun
    | (id, .code .script code) => some (id, code)
    | _ => none

/-- Makes all scripts smaller, or tells of every one that could not be made so. -/
def minify (b : Bundler) (name : String) (outputs : ModuleOutputs) :
    Except BuildError ModuleOutputs :=
  match scripts outputs, b.registry.get? name with
  | [], _ => .ok outputs
  | (id, _) :: _, none => .error (.minify id name "engine is not registered")
  | work, some engine =>
    let done := work.map fun (id, code) => (id, b.minifyScript name engine id code)
    let errors := done.filterMap fun
      | (_, .error e) => some e
      | _ => none
    match BuildError.ofList errors with
    | some e => .error e
    | none => .ok (done.foldl (fun outputs d =>
        match d.2 with
        | .ok o => outputs.insert d.1 o
        | .error _ => outputs) outputs)

/-- The minifying stage, for profiles that have it. -/
def minifyStage (b : Bundler) (outputs : ModuleOutputs) : Except BuildError ModuleOutputs :=
  match b.profile.settings with
  | .production s => if b.has .minify then b.minify s.minimizer outputs else .ok outputs
  | .development _ => .ok outputs

/-- The files made from chunks and copies. -/
def artifacts (b : Bundler) (g : ModuleGraph) (outputs : ModuleOutputs) (chunks : ChunkSet) :
    List Artifact :=
  let settings := ChunkText.Settings.ofProfile b.profile
  let ofChunk (c : Chunk) :=
    Artifact.ofChunk c (ChunkText.ofChunk settings g outputs c) (b.has .fingerprint)
      (b.has .sourceMaps)
  chunks.flatMap ofChunk ++ Artifact.assets outputs

/-- Everything up to the files. With the outcome of a build before, only touched modules are read
and only affected ones transformed. -/
def compile (b : Bundler) (p : Project) (previous : Option Bundle) (touched : List ModuleId) :
    Except BuildError Bundle := do
  let built :=
    b.graphBuilder.rebuild p b.profile.entries (previous.map (·.graph)) touched
  let g := built.graph
  let changes := ChangeSet.between ((previous.map (·.graph)).getD .empty) g
  let batch := (Transformer.ofProfile b.profile b.registry).runIncremental g
    (previous.map fun s => (s.outputs, changes.affected))
  let fatal := (built.errors.filter fun e => !b.isRecoverable e).map BuildError.resolution
  if let some e := BuildError.ofList (fatal ++ batch.errors) then throw e
  let outputs ← b.minifyStage batch.outputs
  let chunks := g.split b.profile batch.outputs.assetIds
  return { graph := g, outputs, chunks, artifacts := b.artifacts g outputs chunks, changes
           warnings := (built.errors.filter b.isRecoverable).map .resolution }

/-- The manifest of a build, for profiles that have one, with the path it is written to. -/
def manifest? (b : Bundler) (made : Bundle) : Option (String × Manifest) :=
  if b.has .manifest then
    b.profile.manifestPath?.map fun path =>
      (Path.join b.profile.root path,
        Manifest.ofBuild (b.profile.entries.map (·.1)) made.graph made.chunks made.artifacts
          made.outputs b.profile.output.publicPath)
  else none

/-- The hints about a build with a manifest. -/
def hints (b : Bundler) (made : Bundle) (manifest : Option Manifest) : List SizeHint :=
  match manifest with
  | some m =>
    if b.has .performanceHints then
      SizeHint.check b.profile.performance made.artifacts m b.profile.output.publicPath
    else []
  | none => []

/-- What running pages are told, when there was a build before. -/
def update? (b : Bundler) (made : Bundle) : Option HotUpdate :=
  b.profile.server?.map fun server =>
    HotUpdate.plan made.changes made.graph (b.has .hotUpdate) server.fullReloadPatterns

/-- Writes what was made. -/
def write (b : Bundler) (made : Bundle) (isRebuild : Bool) : OutputM Snapshot := do
  let written ← Output.writeArtifacts b.profile.outputDirectory made.artifacts
  let manifest := b.manifest? made
  match manifest with
  | some (path, m) => m.write path
  | none => pure ()
  return { made with
    manifest := manifest.map (·.2)
    update := if isRebuild then b.update? made else none
    hints := b.hints made (manifest.map (·.2))
    written }

/-- Builds on what was built before, or from nothing. -/
def rebuild (b : Bundler) (p : Project) (previous : Option Snapshot) (touched : List ModuleId) :
    OutputM Snapshot := do
  match b.compile p (previous.map (·.toBundle)) touched with
  | .error e => throw e
  | .ok made => b.write made previous.isSome

/-- Removes old output if the profile asks for it. -/
def prepare (b : Bundler) : OutputM Unit :=
  if b.profile.output.clean then Output.clear b.profile.outputDirectory else pure ()

/-- Builds from nothing. -/
def build (b : Bundler) (p : Project) : OutputM Snapshot := do
  b.prepare
  b.rebuild p none []

end Bundler

end Bindery
