import Bindery.Bundle.Loader
import Bindery.Text.Vlq

/-!
# Source maps

A source map leads from the lines of a script back to the lines of its modules' sources. Every
line behind the header of a definition, up to the next header, leads to the next line of the
module's source; when the source has no more lines it leads to the last one. Columns are not
followed: whatever is known about a line is known about its first column.
-/

namespace Bindery

/-- A line of a source: the place of the source and the place of the line. -/
structure SourceLine where
  source : Nat
  line : Nat
  deriving DecidableEq, Repr

/-- A source map. -/
structure SourceMap where
  file : String
  /-- The addresses and texts of the sources; an address occurs once. -/
  sources : List (String × String)
  /-- Where each line of the script leads. -/
  lines : List (Option SourceLine)
  deriving DecidableEq, Repr

namespace SourceMap

/-- The place of the last line of a text. -/
def lastLine (text : String) : Nat := (Text.lines text.toList).length - 1

/-- The sources, each address once: of equal ones the first counts. -/
def distinct (sources : List (ModuleId × String)) : List (ModuleId × String) :=
  sources.foldl (fun done s => if done.any (·.1 = s.1) then done else done ++ [s]) []

/-- Where lines lead. `current` is the source of the lines that come next and how many lines of
it have been led to. -/
def trace (sources : List (ModuleId × String)) :
    (current : Option SourceLine) → List (List Char) → List (Option SourceLine)
  | _, [] => []
  | current, line :: r =>
    match Loader.headerId? line with
    | some id =>
      let place := sources.findIdx? (·.1.text = id)
      none :: trace sources (place.map fun i => ⟨i, 0⟩) r
    | none =>
      match current with
      | none => none :: trace sources none r
      | some c =>
        let last := lastLine ((sources.map (·.2)).getD c.source "")
        some ⟨c.source, min c.line last⟩ :: trace sources (some ⟨c.source, c.line + 1⟩) r

/-- The source map of a script. -/
def ofScript (file script : String) (sources : List (ModuleId × String)) : SourceMap :=
  let sources := distinct sources
  { file
    sources := sources.map fun s => (Loader.address s.1.text, s.2)
    lines := trace sources none (Text.lines script.toList) }

/-- What is written for a line: everything is told as the difference to the line before that leads
anywhere. -/
def segment (before target : SourceLine) : List Char :=
  Text.Vlq.encode 0 ++ Text.Vlq.encode ((target.source : Int) - before.source)
    ++ Text.Vlq.encode ((target.line : Int) - before.line) ++ Text.Vlq.encode 0

/-- What is written for lines. `pending` counts the line ends that are only written when another
line that leads anywhere follows. -/
def mappingChars (before : SourceLine) (pending : Nat) : List (Option SourceLine) → List Char
  | [] => []
  | none :: r => mappingChars before (pending + 1) r
  | some t :: r => List.replicate pending ';' ++ segment before t ++ mappingChars t 1 r

/-- The lines as they are written. -/
def mappings (m : SourceMap) : String := String.ofList (mappingChars ⟨0, 0⟩ 0 m.lines)

/-- The map as it is stored. Without sources nothing is said about their texts. -/
def toJson (m : SourceMap) : Json :=
  .obj ([("version", .int 3), ("file", .str m.file), ("names", .arr []),
      ("sources", .arr (m.sources.map fun s => .str s.1))]
    ++ (if m.sources.isEmpty then []
      else [("sourcesContent", .arr (m.sources.map fun s => .str s.2))])
    ++ [("mappings", .str m.mappings)])

/-- The text of the map. -/
def text (m : SourceMap) : String := m.toJson.compact

end SourceMap

end Bindery
