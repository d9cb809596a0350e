import Bindery.Profile.Defaults
import Bindery.Path

/-!
# Profiles

A profile is what the layers of a build come to: every setting has a value, and what only one mode
needs exists only in that mode. It never changes once it is made.
-/

namespace Bindery

/-- Optional behaviour of a build, in the order of the stages it concerns. -/
inductive Capability where
  /-- Styles leave the scripts and become files of their own. -/
  | extractCss
  /-- Scripts are made smaller. -/
  | minify
  /-- Scripts have source maps beside them. -/
  | sourceMapFiles
  /-- A manifest tells which files an entry needs. -/
  | manifest
  /-- Running pages are updated in part. -/
  | hotUpdate
  /-- The build is served and watched. -/
  | devServer
  /-- The build runs unattended. -/
  | ciReport
  deriving DecidableEq, Repr

/-- Where and how files are written. -/
structure OutputSettings where
  path : String
  /-- The address below which the files are served. -/
  publicPath : String
  /-- Old output is removed before the first write. -/
  clean : Bool
  deriving DecidableEq, Repr

structure PerformanceSettings where
  hints : Bool
  maxAssetSize : Nat
  maxEntrypointSize : Nat
  deriving DecidableEq, Repr

structure SplitSettings where
  /-- Smaller chunks are merged into others. -/
  minSize : Nat
  /-- Named groups; the earlier one takes a module that two want. -/
  groups : List ChunkGroup
  deriving BEq, Repr

structure ServerSettings where
  host : String
  port : Nat
  hot : Bool
  allowedHosts : String
  /-- How long changes are gathered, in milliseconds. -/
  debounceMs : Nat
  /-- A change of a module that matches one of them is never a partial update. -/
  fullReloadPatterns : List Pattern
  deriving BEq, Repr

structure DevelopmentSettings where
  sourceMap : SourceMapStrategy
  server : ServerSettings
  deriving BEq, Repr

structure ProductionSettings where
  sourceMap : SourceMapStrategy
  minimize : Bool
  /-- The engine that makes scripts smaller. -/
  minimizer : String
  split : SplitSettings
  /-- Where the manifest is written, seen from the root. -/
  manifestPath : String
  deriving BEq, Repr

/-- The settings that belong to one mode. -/
inductive ModeSettings where
  | development (settings : DevelopmentSettings)
  | production (settings : ProductionSettings)
  deriving BEq, Repr

/-- All settings of one build. -/
structure Profile where
  root : String
  entries : List (String × List String)
  extensions : List String
  output : OutputSettings
  rules : List Rule
  assets : List AssetRule
  engines : List (String × EngineCommand)
  performance : PerformanceSettings
  transformTimeoutMs : Nat
  capabilities : List Capability
  settings : ModeSettings
  deriving BEq, Repr

namespace Profile

def mode (p : Profile) : Mode :=
  match p.settings with
  | .development _ => .development
  | .production _ => .production

def isProduction (p : Profile) : Bool := p.mode == .production

def isDevelopment (p : Profile) : Bool := p.mode == .development

def has (p : Profile) (c : Capability) : Bool := p.capabilities.contains c

def sourceMap (p : Profile) : SourceMapStrategy :=
  match p.settings with
  | .development d => d.sourceMap
  | .production s => s.sourceMap

def server? (p : Profile) : Option ServerSettings :=
  match p.settings with
  | .development d => some d.server
  | .production _ => none

def split? (p : Profile) : Option SplitSettings :=
  match p.settings with
  | .development _ => none
  | .production s => some s.split

def manifestPath? (p : Profile) : Option String :=
  match p.settings with
  | .development _ => none
  | .production s => some s.manifestPath

/-- The output directory, seen from where the root is seen. -/
def outputDirectory (p : Profile) : String := Path.join p.root p.output.path

/-- Some rule puts styles into files of their own. -/
def extractsStyles (rules : List Rule) : Bool :=
  rules.any fun r => r.chain.any fun s => s.engine == "css-extract"

/-- The capabilities that follow from the other settings, in order. -/
def deriveCapabilities (settings : ModeSettings) (rules : List Rule) (minimize : Bool)
    (flags : EnvFlags) : List Capability :=
  let maps (s : SourceMapStrategy) := if s = .sourceMap then [.sourceMapFiles] else []
  let ofMode := match settings with
    | .production s => maps s.sourceMap ++ [.manifest]
    | .development d =>
      maps d.sourceMap ++ (if d.server.hot then [.hotUpdate] else [])
        ++ (if flags.enableDevServer then [.devServer] else [])
  (if extractsStyles rules then [.extractCss] else []) ++ (if minimize then [.minify] else [])
    ++ ofMode ++ (if flags.ci then [.ciReport] else [])

/-- The settings of a mode that a layer comes to. -/
def modeSettings (l : Layer) : Mode → ModeSettings
  | .production =>
    let split := l.split.getD {}
    .production
      { sourceMap := l.sourceMap.getD .sourceMap
        minimize := l.minimize.getD false
        minimizer := l.minimizer.getD Defaults.minimizer
        split :=
          { minSize := split.minSize.getD Defaults.productionMinSize
            groups := split.groups.getD [] }
        manifestPath := l.manifestPath.getD Defaults.productionManifest }
  | .development =>
    let server := l.devServer.getD {}
    .development
      { sourceMap := l.sourceMap.getD .evalSourceMap
        server :=
          { host := server.host.getD Defaults.serverHost
            port := server.port.getD Defaults.serverPort
            hot := server.hot.getD true
            allowedHosts := server.allowedHosts.getD "all"
            debounceMs := server.debounceMs.getD Defaults.debounceMs
            fullReloadPatterns := server.fullReloadPatterns.getD [] } }

/-- The profile that one layer comes to; what it leaves open has a value for each mode. -/
def ofLayer (l : Layer) (mode : Mode) (flags : EnvFlags) : Profile :=
  let performance := l.performance.getD {}
  let rules := l.rules.getD []
  let settings := modeSettings l mode
  { root := l.root.getD "."
    entries := l.entries.getD []
    extensions := l.extensions.getD Defaults.extensions
    output :=
      { path := l.outputPath.getD (match mode with
          | .production => Defaults.productionOutput
          | .development => Defaults.developmentOutput)
        publicPath := l.publicPath.getD Defaults.publicPath
        clean := l.clean.getD (mode == .development) }
    rules
    assets := l.assets.getD []
    engines := l.engines.getD []
    performance :=
      { hints := performance.hints.getD (mode == .production)
        maxAssetSize := performance.maxAssetSize.getD Defaults.maxAssetSize
        maxEntrypointSize := performance.maxEntrypointSize.getD Defaults.maxEntrypointSize }
    transformTimeoutMs := l.transformTimeoutMs.getD Defaults.transformTimeoutMs
    capabilities := deriveCapabilities settings rules (l.minimize.getD false) flags
    settings }

/-- The profile of a build: the built-in settings of the mode, then the base layer, then the
overriding one. -/
def resolve (base overrides : Layer) (mode : Mode) (flags : EnvFlags) : Profile :=
  ofLayer (((Defaults.layer mode).overlay base).overlay overrides) mode flags

/-- The layer that sets everything to what the profile says. -/
def toLayer (p : Profile) : Layer :=
  let shared : Layer :=
    { root := some p.root
      entries := some p.entries
      extensions := some p.extensions
      outputPath := some p.output.path
      publicPath := some p.output.publicPath
      clean := some p.output.clean
      rules := some p.rules
      assets := some p.assets
      engines := some p.engines
      transformTimeoutMs := some p.transformTimeoutMs
      performance := some
        { hints := some p.performance.hints
          maxAssetSize := some p.performance.maxAssetSize
          maxEntrypointSize := some p.performance.maxEntrypointSize }
      sourceMap := some p.sourceMap }
  match p.settings with
  | .production s =>
    { shared with
      minimize := some s.minimize
      minimizer := some s.minimizer
      manifestPath := some s.manifestPath
      split := some { minSize := some s.split.minSize, groups := some s.split.groups } }
  | .development d =>
    { shared with
      minimize := some (p.has .minify)
      devServer := some
        { host := some d.server.host
          port := some d.server.port
          hot := some d.server.hot
          allowedHosts := some d.server.allowedHosts
          debounceMs := some d.server.debounceMs
          fullReloadPatterns := some d.server.fullReloadPatterns } }

end Profile

end Bindery
