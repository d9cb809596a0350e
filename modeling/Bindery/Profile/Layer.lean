import Bindery.Profile.Rule

/-!
# Layers of configuration

A layer sets some of the settings of a build. Layers are put on top of each other: what the upper
one sets counts, lists and maps are replaced as a whole, and the three sections are merged field by
field.
-/

namespace Bindery

/-- The upper value where it is set, else the lower one. -/
def pick (lower upper : Option α) : Option α := upper.or lower

/-- Merges two sections where both are present; otherwise takes the one that is. -/
def mergeSections (merge : α → α → α) : (lower upper : Option α) → Option α
  | some a, some b => some (merge a b)
  | none, some b => some b
  | a, none => a

/-- How modules are split into chunks. -/
structure SplitLayer where
  minSize : Option Nat := none
  groups : Option (List ChunkGroup) := none
  deriving BEq, Repr

def SplitLayer.overlay (lower upper : SplitLayer) : SplitLayer :=
  { minSize := pick lower.minSize upper.minSize, groups := pick lower.groups upper.groups }

/-- How the development build is served. -/
structure ServerLayer where
  host : Option String := none
  port : Option Nat := none
  hot : Option Bool := none
  allowedHosts : Option String := none
  debounceMs : Option Nat := none
  fullReloadPatterns : Option (List Pattern) := none
  deriving BEq, Repr

def ServerLayer.overlay (lower upper : ServerLayer) : ServerLayer :=
  { host := pick lower.host upper.host
    port := pick lower.port upper.port
    hot := pick lower.hot upper.hot
    allowedHosts := pick lower.allowedHosts upper.allowedHosts
    debounceMs := pick lower.debounceMs upper.debounceMs
    fullReloadPatterns := pick lower.fullReloadPatterns upper.fullReloadPatterns }

/-- Which sizes are worth a hint. -/
structure PerformanceLayer where
  hints : Option Bool := none
  maxAssetSize : Option Nat := none
  maxEntrypointSize : Option Nat := none
  deriving BEq, Repr

def PerformanceLayer.overlay (lower upper : PerformanceLayer) : PerformanceLayer :=
  { hints := pick lower.hints upper.hints
    maxAssetSize := pick lower.maxAssetSize upper.maxAssetSize
    maxEntrypointSize := pick lower.maxEntrypointSize upper.maxEntrypointSize }

/-- A layer of configuration; what it does not set is left to the layers below. -/
structure Layer where
  root : Option String := none
  entries : Option (List (String × List String)) := none
  extensions : Option (List String) := none
  outputPath : Option String := none
  publicPath : Option String := none
  manifestPath : Option String := none
  sourceMap : Option SourceMapStrategy := none
  minimize : Option Bool := none
  minimizer : Option String := none
  clean : Option Bool := none
  rules : Option (List Rule) := none
  assets : Option (List AssetRule) := none
  engines : Option (List (String × EngineCommand)) := none
  transformTimeoutMs : Option Nat := none
  split : Option SplitLayer := none
  devServer : Option ServerLayer := none
  performance : Option PerformanceLayer := none
  deriving BEq, Repr

namespace Layer

/-- Puts one layer on top of another. -/
def overlay (lower upper : Layer) : Layer :=
  { root := pick lower.root upper.root
    entries := pick lower.entries upper.entries
    extensions := pick lower.extensions upper.extensions
    outputPath := pick lower.outputPath upper.outputPath
    publicPath := pick lower.publicPath upper.publicPath
    manifestPath := pick lower.manifestPath upper.manifestPath
    sourceMap := pick lower.sourceMap upper.sourceMap
    minimize := pick lower.minimize upper.minimize
    minimizer := pick lower.minimizer upper.minimizer
    clean := pick lower.clean upper.clean
    rules := pick lower.rules upper.rules
    assets := pick lower.assets upper.assets
    engines := pick lower.engines upper.engines
    transformTimeoutMs := pick lower.transformTimeoutMs upper.transformTimeoutMs
    split := mergeSections SplitLayer.overlay lower.split upper.split
    devServer := mergeSections ServerLayer.overlay lower.devServer upper.devServer
    performance := mergeSections PerformanceLayer.overlay lower.performance upper.performance }

/-- The layer that sets nothing. -/
def empty : Layer := {}

/-- Whether a layer sets nothing at all; an empty section counts as something. -/
def isEmpty (l : Layer) : Bool := l == empty

end Layer

end Bindery
