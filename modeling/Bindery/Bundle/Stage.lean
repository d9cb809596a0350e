import Bindery.Profile.Basic

/-!
# The stages of a build

A profile fixes once and for all which stages a build goes through. The stages always come in the
order in which they are listed here; optional ones are left out.
-/

namespace Bindery

/-- A stage of a build. -/
inductive Stage where
  | graph
  | transform
  | minify
  | split
  | render
  | extractCss
  | fingerprint
  | sourceMaps
  | write
  | manifest
  | performanceHints
  | hotUpdate
  | report
  deriving DecidableEq, Repr

namespace Stage

def name : Stage → String
  | .graph => "graph"
  | .transform => "transform"
  | .minify => "minify"
  | .split => "split"
  | .render => "render"
  | .extractCss => "extract-css"
  | .fingerprint => "fingerprint"
  | .sourceMaps => "source-maps"
  | .write => "write"
  | .manifest => "manifest"
  | .performanceHints => "performance-hints"
  | .hotUpdate => "hot-update"
  | .report => "report"

/-- All stages in order. -/
def all : List Stage :=
  [.graph, .transform, .minify, .split, .render, .extractCss, .fingerprint, .sourceMaps, .write,
    .manifest, .performanceHints, .hotUpdate, .report]

/-- The capability that brings a stage about, for the optional ones. -/
def capability? : Stage → Option Capability
  | .extractCss => some .extractCss
  | .minify => some .minify
  | .sourceMaps => some .sourceMapFiles
  | .manifest => some .manifest
  | .hotUpdate => some .hotUpdate
  | .report => some .ciReport
  | _ => none

/-- Whether builds of a profile go through a stage. -/
def isIn (p : Profile) (s : Stage) : Bool :=
  match s with
  | .fingerprint => p.isProduction
  | .performanceHints => p.isProduction && p.performance.hints
  | s => s.capability?.all p.has

/-- The stages of a profile, in order. -/
def ofProfile (p : Profile) : List Stage := all.filter (isIn p)

end Stage

end Bindery
