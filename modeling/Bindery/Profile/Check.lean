import Bindery.Profile.Basic
import Bindery.Profile.Error

/-!
# Checking a profile

Merging layers never fails. What contradicts itself is found here, before any module is read; the
first fault in the order of the checks is the one that is reported.
-/

namespace Bindery.Profile

/-- The fault of one entry. -/
def entryFault? (entry : String × List String) : Option ConfigError :=
  if Text.isBlankText entry.1 then some (.invalidValue "entry names cannot be empty")
  else if entry.2.isEmpty || entry.2.any Text.isBlankText then some (.emptyEntry entry.1)
  else none

/-- A text that occurs within another. -/
def occursIn (part : List Char) : List Char → Bool
  | [] => part.isEmpty
  | c :: r => part.isPrefixOf (c :: r) || occursIn part r

/-- The fault of an asset rule. -/
def assetFault? (a : AssetRule) : Option ConfigError :=
  if occursIn "[name]".toList a.filename.toList then none
  else some (.invalidValue ("asset filename '" ++ a.filename ++ "' must contain [name]"))

/-- The first fault of the named groups; `seen` holds the names before. -/
def groupFault? (entries : List String) (seen : List String) : List ChunkGroup → Option ConfigError
  | [] => none
  | g :: r =>
    if Text.isBlankText g.name then some (.invalidChunkGroup g.name "name cannot be empty")
    else if g.name.toList.any fun c => c = '/' || c = '\\' then
      some (.invalidChunkGroup g.name "name cannot contain path separators")
    else if seen.contains g.name then some (.duplicateChunkGroup g.name)
    else if entries.contains g.name then some (.groupShadowsEntry g.name)
    else groupFault? entries (g.name :: seen) r

/-- The fault of the address below which files are served. -/
def publicPathFault? (path : String) : Option ConfigError :=
  if path.toList.getLast? = some '/' then none
  else some (.invalidValue ("public_path '" ++ path ++ "' must end with '/'"))

/-- The fault of an extension. -/
def extensionFault? (extension : String) : Option ConfigError :=
  if extension.toList.head? = some '.' then none
  else some (.invalidValue ("extension '" ++ extension ++ "' must start with '.'"))

/-- The first fault of a profile. -/
def fault? (p : Profile) : Option ConfigError :=
  if p.entries.isEmpty then some .noEntries
  else
    (p.entries.findSome? entryFault?).or
      ((publicPathFault? p.output.publicPath).or
        ((p.extensions.findSome? extensionFault?).or
          ((p.assets.findSome? assetFault?).or
            (match p.split? with
            | some s => groupFault? (p.entries.map (·.1)) [] s.groups
            | none => none))))

/-- Accepts a profile without faults. -/
def validate (p : Profile) : Except ConfigError Unit :=
  match p.fault? with
  | some e => .error e
  | none => .ok ()

end Bindery.Profile
