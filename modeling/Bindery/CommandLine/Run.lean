import Bindery.CommandLine.Arguments
import Bindery.CommandLine.Error
import Bindery.CommandLine.Report
import Bindery.Config.Document
import Bindery.Engine.Command
import Bindery.Session.Basic
import Bindery.Session.Watch

/-!
# Running commands

`build` builds a project once. `dev` begins a session: what it needs is checked before anything is
watched. Both read the project from a disk and work on that disk.
-/

namespace Bindery

/-- Where a command runs. -/
structure Surroundings where
  /-- The directory from which relative paths are seen. -/
  current : String
  vars : List (String × String)
  /-- The programs that can be started. -/
  tools : Toolbox
  terminal : Terminal

/-- The files of a disk as a project. -/
def Disk.project (d : Disk) : Project := ⟨d.tree, d.base⟩

namespace Surroundings

/-- The programs that can be started in a directory: none where there is no directory. -/
def toolsIn (s : Surroundings) (d : Disk) (directory : String) : Toolbox :=
  if d.isDir directory then s.tools else fun _ => none

/-- The configuration of the project that a command is about. -/
def configuration (s : Surroundings) (i : Invocation) (d : Disk) :
    Except CommandError Configuration :=
  let root := i.root s.current
  if d.isDir root then
    (Configuration.load d.project s.vars root (i.configPath? s.current)).mapError .config
  else .error (.directoryNotFound root)

/-- The bundler for a profile. -/
def bundler (s : Surroundings) (d : Disk) (p : Profile) : Except CommandError Bundler :=
  (Bundler.ofProfile p (.ofProfile (s.toolsIn d p.root) p)).mapError .build

/-- The flags that are set by variables. -/
def flags (s : Surroundings) : EnvFlags := .ofPairs s.vars

/-- The bundler of a single build. -/
def buildBundler (s : Surroundings) (i : Invocation) (mode : Mode) (d : Disk) :
    Except CommandError Bundler := do
  s.bundler d ((← s.configuration i d).resolve mode s.flags)

/-- A configuration whose sessions always have pages loaded again. -/
def withoutHot (c : Configuration) : Configuration :=
  let server := c.development.devServer.getD {}
  { c with development :=
      { c.development with devServer := some { server with hot := some false } } }

/-- The session of a project. -/
def session (s : Surroundings) (i : Invocation) (noHot : Bool) (d : Disk) :
    Except CommandError Session := do
  let c ← s.configuration i d
  let c := if noHot then withoutHot c else c
  let p := c.resolve .development s.flags
  let b ← s.bundler d p
  if d.isDir p.root then return .ofBundler b true
  throw (.directoryNotFound p.root)

/-- Builds from what is on the disk. Old output is removed before the project is looked at. -/
def buildOnDisk (b : Bundler) : OutputM Snapshot := do
  b.prepare
  b.rebuild (← get).project none []

/-- Builds a project once. What is told before the build begins comes with its outcome. -/
def runBuild (s : Surroundings) (i : Invocation) (mode : Mode) (json : Bool) :
    StateM Disk (Except CommandError Snapshot × Transcript) := do
  match s.buildBundler i mode (← get) with
  | .error e => return (.error e, .empty)
  | .ok b =>
    let entries := toString b.profile.entries.length
    let announced :=
      if json then Transcript.empty
      else Transcript.empty.addTerminal
        (s.terminal.line .info ("Building " ++ entries ++ " entries in " ++ mode.name ++ " mode"))
    return ((← (buildOnDisk b).run).mapError .build, announced)

/-- All that is told about a build, after it took some time. -/
def buildTranscript (s : Surroundings) (mode : Mode) (json : Bool) (durationMs : Nat) :
    Except CommandError Snapshot × Transcript → Transcript
  | (.ok snapshot, announced) => s.terminal.buildReport snapshot mode json durationMs announced
  | (.error _, announced) => announced

/-- What is told when a session begins to watch. -/
def watching (s : Surroundings) (session : Session) (json : Bool) : Transcript :=
  if json then .empty
  else Transcript.empty.addTerminal
    (s.terminal.line .info
      ("Watching " ++ session.bundler.profile.root ++ " (Ctrl+C to stop)"))

end Surroundings

end Bindery
