import Bindery.CommandLine.Terminal
import Bindery.Json.Printer
import Bindery.Number.Total
import Bindery.Session.Update

/-!
# What commands tell

Lines for people go to the terminal, values for programs to the output; a command that is asked for
the latter leaves the former out.
-/

namespace Bindery

/-- What a command has written so far. -/
structure Transcript where
  /-- Values for programs. -/
  output : String := ""
  /-- Lines for people. -/
  terminal : String := ""
  deriving DecidableEq, Repr

namespace Transcript

def empty : Transcript := {}

def addOutput (t : Transcript) (text : String) : Transcript := { t with output := t.output ++ text }

def addTerminal (t : Transcript) (text : String) : Transcript :=
  { t with terminal := t.terminal ++ text }

end Transcript

namespace Terminal

/-- The line about a file that was written. -/
def fileLine (t : Terminal) (a : Artifact) : String :=
  "  " ++ t.styled (inColor 34) "▸" ++ " " ++ t.styled (fun s => bold (inColor 97 s)) a.file ++ " "
    ++ t.styled dimmed (Measure.size a.size) ++ "\n"

/-- The table of the files that were written. Source maps are left out and do not count. -/
def buildTable (t : Terminal) (s : Snapshot) (durationMs : Nat) : String :=
  let shown := s.artifacts.filter (·.kind != .sourceMap)
  let size := Measure.size (total (shown.map Artifact.size))
  "\n" ++ t.styled (fun s => underlined (bold s)) "Build Summary" ++ "\n" ++ t.rule
    ++ String.join (shown.map t.fileLine) ++ t.rule
    ++ "  " ++ t.styled bold "Total:" ++ " " ++ t.styled (inColor 32) size ++ " in "
    ++ toString s.chunks.length ++ " chunks, " ++ t.styled (inColor 32) (t.showTime durationMs)
    ++ "\n"

/-- What is told about a finished build. -/
def buildReport (t : Terminal) (s : Snapshot) (mode : Mode) (json : Bool) (durationMs : Nat)
    (done : Transcript) : Transcript :=
  let remarks := s.warnings.map BuildError.message ++ s.hints.map SizeHint.message
  let done := done.addTerminal (String.join (remarks.map (t.line .warning)))
  if json then
    let members := (s.summary mode).members ++ [("duration_ms", .int durationMs)]
    done.addOutput (Json.pretty (.obj members) ++ "\n")
  else
    (done.addTerminal (t.buildTable s durationMs)).addTerminal
      (t.line .success
        ("Built " ++ toString s.written.length ++ " files in " ++ t.showTime durationMs))

/-- The line about a good cycle of a session. -/
def cycleMessage (t : Terminal) (u : SessionUpdate) : String :=
  let time := t.showTime u.durationMs
  match u.reason with
  | some reason => "Rebuilt in " ++ time ++ ", full reload: " ++ reason.message
  | none =>
    if u.changed.isEmpty && u.fullReload then "Built in " ++ time
    else "Rebuilt " ++ toString u.changed.length ++ " changed modules in " ++ time

/-- What is told about a cycle of a session. -/
def updateReport (t : Terminal) (u : SessionUpdate) (json : Bool) : Transcript :=
  if json then Transcript.empty.addOutput (u.json.compact ++ "\n")
  else if u.success then Transcript.empty.addTerminal (t.line .success (t.cycleMessage u))
  else Transcript.empty.addTerminal (String.join (u.errors.map (t.line .failure)))

end Terminal

end Bindery
