import Bindery.Profile.Layer
import Bindery.Profile.Mode

/-!
# Built-in settings

The bottom layer of every build. A project without any configuration is built with these.
-/

namespace Bindery.Defaults

def entryName : String := "simple"
def entryModule : String := "client/simple.entry.tsx"
def extensions : List String := [".ts", ".tsx", ".js", ".jsx", ".css"]
def publicPath : String := "/static/dist/"
def transformTimeoutMs : Nat := 30000
def debounceMs : Nat := 50

def productionOutput : String := "dist/static/dist"
def productionManifest : String := "dist/server/assets.json"
def productionMinSize : Nat := 400000
def maxAssetSize : Nat := 3000000
def maxEntrypointSize : Nat := 3500000

def developmentOutput : String := "static/dist"
def serverHost : String := "0.0.0.0"
def serverPort : Nat := 3010

/-- The engine that makes scripts smaller. -/
def minimizer : String := "minify"

/-- Fonts, with or without a version behind the name. -/
def fontPattern : String := "\\.(woff(2)?|ttf|eot|svg)(\\?v=\\d+\\.\\d+\\.\\d+)?$"

/-- The editor package that gets a chunk of its own. -/
def editorGroup : ChunkGroup :=
  { name := "monaco-editor-common-v2"
    test := .ofLiteral "[\\\\/]node_modules[\\\\/]monaco-editor"
    chunks := .async }

def fontRule : AssetRule :=
  { test := .ofLiteral fontPattern, filename := AssetRule.defaultFilename }

def productionRules : List Rule := [
  { test := .ofLiteral "\\.css$", chain := [{ engine := "css" }, { engine := "css-extract" }] },
  { test := .ofLiteral "\\.(ts|tsx|js|jsx)$"
    exclude := some (.ofLiteral "node_modules|\\.stories\\.tsx")
    chain := [{ engine := "script" }] }]

def developmentRules : List Rule := [
  { test := .ofLiteral "\\.css$", chain := [{ engine := "css" }, { engine := "style-inject" }] },
  { test := .ofLiteral "\\.tsx?$", chain := [{ engine := "script" }] }]

/-- What both modes share. -/
def shared : Layer :=
  { entries := some [(entryName, [entryModule])]
    extensions := some extensions
    publicPath := some publicPath
    assets := some [fontRule]
    transformTimeoutMs := some transformTimeoutMs }

/-- What a mode adds to it. -/
def specific : Mode → Layer
  | .production =>
    { outputPath := some productionOutput
      manifestPath := some productionManifest
      sourceMap := some .sourceMap
      minimize := some true
      minimizer := some minimizer
      clean := some false
      rules := some productionRules
      split := some { minSize := some productionMinSize, groups := some [editorGroup] }
      performance := some
        { hints := some true, maxAssetSize := some maxAssetSize
          maxEntrypointSize := some maxEntrypointSize } }
  | .development =>
    { outputPath := some developmentOutput
      sourceMap := some .evalSourceMap
      minimize := some false
      clean := some true
      rules := some developmentRules
      devServer := some
        { host := some serverHost, port := some serverPort, hot := some true
          allowedHosts := some "all", debounceMs := some debounceMs
          fullReloadPatterns := some [] }
      performance := some
        { hints := some false, maxAssetSize := some maxAssetSize
          maxEntrypointSize := some maxEntrypointSize } }

/-- The bottom layer of a mode. -/
def layer (mode : Mode) : Layer := shared.overlay (specific mode)

end Bindery.Defaults
