import Bindery.Bundle.Stage
import Bindery.Inspect.Basic
import Bindery.Profile.Check

/-!
# Looking into profiles
-/

namespace Bindery.Inspect

def stepJson (s : EngineStep) : Json :=
  .obj ([("engine", .str s.engine)] ++ (match s.options with
    | .null => []
    | o => [("options", o)]))

def patternJson (p : Pattern) : Json := .str p.source

def ruleJson (r : Rule) : Json :=
  .obj ([("test", patternJson r.test), ("chain", .arr (r.chain.map stepJson))]
    ++ (match r.exclude with
      | some e => [("exclude", patternJson e)]
      | none => []))

def assetRuleJson (a : AssetRule) : Json :=
  .obj [("test", patternJson a.test), ("filename", .str a.filename)]

def scopeName : ChunkScope → String
  | .all => "all"
  | .async => "async"
  | .initial => "initial"

def groupJson (g : ChunkGroup) : Json :=
  .obj [("name", .str g.name), ("test", patternJson g.test), ("chunks", .str (scopeName g.chunks))]

def commandJson (e : EngineCommand) : Json :=
  .obj [("command", .str e.command), ("args", strs e.args), ("timeout_ms", optJson nat e.timeoutMs)]

def sourceMapName : SourceMapStrategy → String
  | .none => "none"
  | .sourceMap => "source-map"
  | .evalSourceMap => "eval-source-map"

def splitLayerJson (s : SplitLayer) : Json :=
  .obj [("min_size", optJson nat s.minSize), ("groups", optJson (arrOf groupJson) s.groups)]

def serverLayerJson (s : ServerLayer) : Json :=
  .obj [("host", optJson str s.host), ("port", optJson nat s.port), ("hot", optJson .bool s.hot),
    ("allowed_hosts", optJson str s.allowedHosts), ("debounce_ms", optJson nat s.debounceMs),
    ("full_reload_patterns", optJson (arrOf patternJson) s.fullReloadPatterns)]

def performanceLayerJson (p : PerformanceLayer) : Json :=
  .obj [("hints", optJson .bool p.hints), ("max_asset_size", optJson nat p.maxAssetSize),
    ("max_entrypoint_size", optJson nat p.maxEntrypointSize)]

def layerFieldsJson (l : Layer) : Json :=
  .obj [("root", optJson str l.root), ("entries", optJson (mapOf strs) l.entries),
    ("extensions", optJson strs l.extensions), ("output_path", optJson str l.outputPath),
    ("public_path", optJson str l.publicPath), ("manifest_path", optJson str l.manifestPath),
    ("source_map", optJson (fun s => .str (sourceMapName s)) l.sourceMap),
    ("minimize", optJson .bool l.minimize), ("minimizer", optJson str l.minimizer),
    ("clean", optJson .bool l.clean), ("rules", optJson (arrOf ruleJson) l.rules),
    ("assets", optJson (arrOf assetRuleJson) l.assets),
    ("engines", optJson (mapOf commandJson) l.engines),
    ("transform_timeout_ms", optJson nat l.transformTimeoutMs),
    ("split", optJson splitLayerJson l.split), ("dev_server", optJson serverLayerJson l.devServer),
    ("performance", optJson performanceLayerJson l.performance)]

def layerJson (l : Layer) : Json :=
  .obj [("fields", layerFieldsJson l),
    ("entry_order", optJson (fun e => strs (e.map (·.1))) l.entries),
    ("engine_order", optJson (fun e => strs (e.map (·.1))) l.engines),
    ("is_empty", .bool l.isEmpty)]

def configErrorName : ConfigError → String
  | .notFound _ => "NotFound"
  | .unsupportedFormat _ => "UnsupportedFormat"
  | .invalidValue _ => "InvalidValue"
  | .invalidPattern _ _ => "InvalidPattern"
  | .noEntries => "NoEntries"
  | .emptyEntry _ => "EmptyEntry"
  | .duplicateChunkGroup _ => "DuplicateChunkGroup"
  | .groupShadowsEntry _ => "GroupShadowsEntry"
  | .invalidChunkGroup _ _ => "InvalidChunkGroup"
  | .io _ => "Io"

/-- A configuration error. What a document says in words of its own is left out. -/
def configErrorJson (fromDocument : Bool) (e : ConfigError) : Json :=
  .obj ([("error", .str (configErrorName e))] ++ (match e with
    | .invalidPattern pattern _ => [("pattern", .str pattern)]
    | .invalidValue _ => if fromDocument then [] else [("message", .str e.message)]
    | _ => [("message", .str e.message)]))

def capabilityName : Capability → String
  | .extractCss => "ExtractCss"
  | .minify => "Minify"
  | .sourceMapFiles => "SourceMapFiles"
  | .manifest => "Manifest"
  | .hotUpdate => "HotUpdate"
  | .devServer => "DevServer"
  | .ciReport => "CiReport"

def stagesJson (p : Profile) : Json :=
  .obj [("stages", strs ((Stage.ofProfile p).map Stage.name))]

/-- A profile; `again` is what its own layer comes to. -/
def profileJson (p again : Profile) : Json :=
  .obj [("mode", .str p.mode.name), ("is_production", .bool p.isProduction),
    ("is_development", .bool p.isDevelopment), ("partial", layerJson p.toLayer),
    ("capabilities", strs (p.capabilities.map capabilityName)),
    ("capability_count", nat p.capabilities.length),
    ("no_capabilities", .bool p.capabilities.isEmpty), ("output_dir", .str p.outputDirectory),
    ("manifest_path", optJson str p.manifestPath?),
    ("dev_port", optJson nat (p.server?.map (·.port))),
    ("min_size", optJson nat (p.split?.map (·.minSize))),
    ("source_map", .str (sourceMapName p.sourceMap)), ("pipeline", stagesJson p),
    ("idempotent", .bool (again == p)),
    ("validate", match p.validate with
      | .ok _ => .str "ok"
      | .error e => configErrorJson false e)]

end Bindery.Inspect
