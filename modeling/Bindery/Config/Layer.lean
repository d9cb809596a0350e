import Bindery.Config.Record
import Bindery.Profile.Layer

/-!
# Reading layers

The written form of a layer of configuration: one member for each setting.
-/

namespace Bindery.Config

/-- A pattern that is accepted. -/
def pattern : Reader Pattern := fun v => (text v).bind Pattern.ofSource?

/-- The name of an engine, or a record with its options. -/
def engineStep : Reader EngineStep
  | .str engine => some { engine }
  | v => do
    let r ← record? ["engine", "options"] v
    let engine ← r.required "engine" text
    return { engine, options := ((r "options").getD .null).sortKeys }

def rule : Reader Rule := fun v => do
  let r ← record? ["test", "exclude", "chain"] v
  return {
    test := ← r.required "test" pattern
    exclude := ← r.optional "exclude" pattern
    chain := ← r.required "chain" (listOf engineStep) }

def assetRule : Reader AssetRule := fun v => do
  let r ← record? ["test", "filename"] v
  return {
    test := ← r.required "test" pattern
    filename := ← r.withDefault "filename" AssetRule.defaultFilename text }

def chunkScope (byPlace : Bool) : Reader ChunkScope :=
  word byPlace [("all", .all), ("async", .async), ("initial", .initial)]

def chunkGroup (byPlace : Bool) : Reader ChunkGroup := fun v => do
  let r ← record? ["name", "test", "chunks"] v
  return {
    name := ← r.required "name" text
    test := ← r.required "test" pattern
    chunks := ← r.withDefault "chunks" .all (chunkScope byPlace) }

def engineCommand : Reader EngineCommand := fun v => do
  let r ← record? ["command", "args", "timeout_ms"] v
  return {
    command := ← r.required "command" text
    args := ← r.withDefault "args" [] (listOf text)
    timeoutMs := ← r.optional "timeout_ms" natural64 }

def sourceMap (byPlace : Bool) : Reader SourceMapStrategy :=
  word byPlace
    [("none", .none), ("source-map", .sourceMap), ("eval-source-map", .evalSourceMap)]

def splitLayer (byPlace : Bool) : Reader SplitLayer := fun v => do
  let r ← record? ["min_size", "groups"] v
  return {
    minSize := ← r.optional "min_size" natural64
    groups := ← r.optional "groups" (listOf (chunkGroup byPlace)) }

def serverLayer : Reader ServerLayer := fun v => do
  let r ← record? ["host", "port", "hot", "allowed_hosts", "debounce_ms", "full_reload_patterns"] v
  return {
    host := ← r.optional "host" text
    port := ← r.optional "port" natural16
    hot := ← r.optional "hot" flag
    allowedHosts := ← r.optional "allowed_hosts" text
    debounceMs := ← r.optional "debounce_ms" natural64
    fullReloadPatterns := ← r.optional "full_reload_patterns" (listOf pattern) }

def performanceLayer : Reader PerformanceLayer := fun v => do
  let r ← record? ["hints", "max_asset_size", "max_entrypoint_size"] v
  return {
    hints := ← r.optional "hints" flag
    maxAssetSize := ← r.optional "max_asset_size" natural64
    maxEntrypointSize := ← r.optional "max_entrypoint_size" natural64 }

/-- The settings in the order in which a layer is written as a list. -/
def layerFields : List String :=
  ["root", "entries", "extensions", "output_path", "public_path", "manifest_path", "source_map",
    "minimize", "minimizer", "clean", "rules", "assets", "engines", "transform_timeout_ms", "split",
    "dev_server", "performance"]

/-- A layer of configuration. -/
def layer (byPlace : Bool) : Reader Layer := fun v => do
  let r ← record? layerFields v
  return {
    root := ← r.optional "root" text
    entries := ← r.optional "entries" (mapOf (listOf text))
    extensions := ← r.optional "extensions" (listOf text)
    outputPath := ← r.optional "output_path" text
    publicPath := ← r.optional "public_path" text
    manifestPath := ← r.optional "manifest_path" text
    sourceMap := ← r.optional "source_map" (sourceMap byPlace)
    minimize := ← r.optional "minimize" flag
    minimizer := ← r.optional "minimizer" text
    clean := ← r.optional "clean" flag
    rules := ← r.optional "rules" (listOf rule)
    assets := ← r.optional "assets" (listOf assetRule)
    engines := ← r.optional "engines" (mapOf engineCommand)
    transformTimeoutMs := ← r.optional "transform_timeout_ms" natural64
    split := ← r.optional "split" (splitLayer byPlace)
    devServer := ← r.optional "dev_server" serverLayer
    performance := ← r.optional "performance" performanceLayer }

end Bindery.Config
