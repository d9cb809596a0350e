import Bindery.Bundle.Build
import Bindery.Inspect.Graph
import Bindery.Inspect.Profile

/-!
# Looking into builds
-/

namespace Bindery.Inspect

def kindJson : ContentKind → Json
  | .script => .str "script"
  | .style => .str "style"

def stepsJson (chain : List EngineStep) : Json := .arr (chain.map stepJson)

def treatmentJson : Treatment → Json
  | .asset i f => .arr [.str "asset", nat i, .str f]
  | .transform i chain => .arr [.str "transform", nat i, stepsJson chain]
  | .passThrough => .arr [.str "pass"]

def outputJson (o : EngineOutput) : Json :=
  .obj [("code", .str o.code), ("kind", kindJson o.kind)]

def chunkKindName : ChunkKind → String
  | .initial => "initial"
  | .async => "async"
  | .shared => "shared"

def chunkJson (c : Chunk) : Json :=
  .obj [("name", .str c.name), ("kind", .str (chunkKindName c.kind)), ("entry", optJson str c.entry),
    ("group", optJson str c.group), ("modules", idsJson c.modules), ("size", nat c.size)]

/-- The content of a file; the lines that all scripts share are not shown. -/
def shownContent (b : ByteArray) : Json :=
  let marked := match Text.Utf8.decode? b with
    | some s =>
      (Text.stripStart? Loader.prelude.toList s.toList).map fun r =>
        "<PRELUDE>" ++ String.ofList r
    | none => none
  match marked with
  | some s => bytesJson s.toUTF8
  | none => bytesJson b

def artifactJson (a : Artifact) : Json :=
  .obj [("file", .str a.file), ("kind", .str a.kind.name), ("chunk", optJson str a.chunk),
    ("fingerprint", optJson str a.fingerprint), ("size", nat a.size),
    ("content", shownContent a.bytes)]

def planJson (u : HotUpdate) : Json :=
  .obj [("update", .obj [("changed", idsJson u.changed), ("affected", nat u.affected),
      ("full_reload", optJson (fun r => .obj r.members) u.reload)]),
    ("is_full_reload", .bool u.isFullReload),
    ("reason", optJson (fun r => .str r.message) u.reload)]

def hintJson (h : SizeHint) : Json :=
  let value : Json := match h with
    | .asset file size limit =>
      .obj [("kind", .str "asset-too-large"), ("file", .str file), ("size", nat size),
        ("limit", nat limit)]
    | .entry name size limit =>
      .obj [("kind", .str "entrypoint-too-large"), ("entry", .str name), ("size", nat size),
        ("limit", nat limit)]
  .arr [value, .str h.message]

def buildErrorName : BuildError → String
  | .config _ => "Config"
  | .resolution _ => "Resolution"
  | .unknownTransform _ _ _ => "UnknownTransform"
  | .transform _ _ _ => "Transform"
  | .timedOut _ _ _ => "TimedOut"
  | .minify _ _ _ => "Minify"
  | .invalidOutputPath _ => "InvalidOutputPath"
  | .write _ _ => "Write"
  | .task _ => "Task"
  | .aggregate _ => "Aggregate"

def errorKindName : ErrorKind → String
  | .config => "Config"
  | .resolution => "Resolution"
  | .transform => "Transform"
  | .write => "Write"

def buildErrorJson (e : BuildError) : Json :=
  let inner : Json := match e with
    | .config c => .str (configErrorName c)
    | .resolution g => .str (graphErrorName g)
    | _ => .null
  .obj [("error", .str (buildErrorName e)), ("message", .str e.message),
    ("kind", .str (errorKindName e.kind)), ("module", optJson idJson e.module?),
    ("code", .str e.code), ("help", optJson str e.help?), ("severity", .str "Error"),
    ("related", optJson (fun l => nat l.length) e.related?), ("inner", inner),
    ("leaves", .arr (e.leaves.map fun l =>
      .arr [.str (buildErrorName l), .str l.message, optJson idJson l.module?]))]

def manifestJson (m : Manifest) : Json :=
  .obj [("json", .str m.text), ("len", nat m.length), ("is_empty", .bool m.isEmpty),
    ("counts", .arr (m.map fun (e, fs) => .arr [.str e, nat fs.length]))]

/-- What a build came to. -/
def snapshotMembers (mode : Mode) (s : Snapshot) : List (String × Json) :=
  [("graph", graphJson s.graph), ("chunks", .arr (s.chunks.map chunkJson)),
    ("artifacts", .arr (s.artifacts.map artifactJson)),
    ("manifest", optJson manifestJson s.manifest), ("changes", changesJson s.changes),
    ("update", optJson planJson s.update),
    ("warnings", .arr (s.warnings.map fun w => .arr [.str (buildErrorName w), .str w.message])),
    ("hints", .arr (s.hints.map hintJson)), ("written", strs s.written),
    ("summary", .obj (s.summary mode).members)]

def fingerprintJson (b : ByteArray) : Json := .str (FileName.fingerprint b)

/-- All files of a disk, each with what `f` tells of its content. -/
def treeJson (f : ByteArray → Json) (d : Disk) : Json :=
  let files := d.tree.files.map fun (loc, b) => (Path.slashed loc, b)
  arrOf (fun (path, b) => .arr [.str path, f b]) (files.mergeSort fun a b => a.1 ≤ b.1)

end Bindery.Inspect
