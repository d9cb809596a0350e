import Bindery.Bundle.Manifest
import Bindery.Number.Total

/-!
# Hints about sizes

A finished build is searched for files that are too large, and for entries that load too much
before they start.
-/

namespace Bindery

/-- Something that is larger than it should be. -/
inductive SizeHint where
  | asset (file : String) (size limit : Nat)
  | entry (name : String) (size limit : Nat)
  deriving DecidableEq, Repr

namespace SizeHint

def message : SizeHint → String
  | .asset file size limit =>
    "asset '" ++ file ++ "' is " ++ toString size ++ " bytes (limit " ++ toString limit ++ ")"
  | .entry name size limit =>
    "entrypoint '" ++ name ++ "' loads " ++ toString size ++ " bytes up front (limit "
      ++ toString limit ++ ")"

/-- The part of a path below a public path; other paths stay as they are. -/
def fileName (publicPath path : String) : String :=
  match Text.stripStart? publicPath.toList path.toList with
  | some r => String.ofList r
  | none => path

/-- How much is loaded before an entry starts. -/
def upFrontSize (artifacts : List Artifact) (publicPath : String) (files : List ManifestFile) :
    Nat :=
  let wanted := (files.filter (·.isEntryPoint)).filterMap fun f =>
    artifacts.find? (·.file = fileName publicPath f.path)
  total (wanted.map Artifact.size)

/-- The hints about a build: first those about files, then those about entries. Source maps are
never loaded without need and do not count. -/
def check (s : PerformanceSettings) (artifacts : List Artifact) (m : Manifest)
    (publicPath : String) : List SizeHint :=
  if s.hints then
    let large := (artifacts.filter (·.kind != .sourceMap)).filter fun a => a.size > s.maxAssetSize
    let slow := (m.map fun e => (e.1, upFrontSize artifacts publicPath e.2)).filter
      fun e => e.2 > s.maxEntrypointSize
    large.map (fun a => .asset a.file a.size s.maxAssetSize)
      ++ slow.map fun e => .entry e.1 e.2 s.maxEntrypointSize
  else []

end SizeHint

end Bindery
