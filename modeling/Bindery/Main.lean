import Bindery.CommandLine.Run
import Bindery.CommandLine.Usage
import Bindery.Program.Shell

/-!
# The program

The files of the project are named on standard input, one path a line. For `dev` an empty line ends
them; behind it come the paths that changed, and an empty line ends each batch of these. The end of
the input ends the session. Everything is decided elsewhere: here files are read before a command
runs, and what it changed is written behind it.
-/

namespace Bindery.CommandLine

/-- The variables in the form in which the system hands them over. -/
def variablesOf (bytes : ByteArray) : List (String × String) :=
  let texts := ((Text.Utf8.decodeLossy bytes).toList.splitOn '\x00').filter (· != [])
  texts.map fun text =>
    (String.ofList (text.takeWhile (· != '=')), String.ofList (text.dropWhile (· != '=')).tail)

/-- The lines up to an empty one. Also tells whether the input has ended. -/
partial def readLines (input : IO.FS.Stream) (lines : List String) : IO (List String × Bool) := do
  let line ← input.getLine
  let text := String.ofList (line.toList.filter fun c => c != '\n' && c != '\r')
  if line.isEmpty then return (lines.reverse, true)
  else if text.isEmpty then return (lines.reverse, false)
  else readLines input (text :: lines)

/-- Takes the present content of a file into a tree, or its absence. -/
def refresh (current : String) (t : FileTree) (path : String) : IO FileTree := do
  let location := Location.ofPath current path
  try
    let bytes ← IO.FS.readBinFile location.toPath
    return t.putFile location bytes
  catch _ => return t.erase location

/-- Writes the files that differ between two trees. -/
def store (before after : FileTree) : IO Unit := do
  for (location, bytes) in after.files do
    if before.read? location != some bytes then
      IO.FS.createDirAll (Location.toPath location.dropLast)
      IO.FS.writeBinFile location.toPath bytes
  for (location, _) in before.files do
    if !after.isFile location then IO.FS.removeFile location.toPath

/-- Prints what a command told. -/
def tell (t : Transcript) : IO Unit := do
  (← IO.getStderr).putStr t.terminal
  (← IO.getStdout).putStr t.output
  (← IO.getStdout).flush

/-- Tells why a command failed, and gives its exit status. -/
def fail (e : CommandError) : IO UInt32 := do
  (← IO.getStderr).putStr (Usage.failureText e.report e.help?)
  return e.exitCode.toUInt32

/-- Lets signals reach a session, stores what that changed and tells of updates. -/
def deliver (s : Session) (terminal : Terminal) (json : Bool) (st : SessionState) (d : Disk)
    (signals : List Signal) : IO (SessionState × Disk) := do
  let ((next, updates), after) := s.run st signals d
  store d.tree after.tree
  for u in updates do
    tell (terminal.updateReport u json)
  return (next, after)

/-- Follows a session to the end of the input. -/
partial def follow (s : Session) (terminal : Terminal) (json : Bool) (input : IO.FS.Stream)
    (st : SessionState) (d : Disk) : IO Unit := do
  let root := s.bundler.profile.root
  let (lines, ended) ← readLines input []
  let paths := (lines.map (Path.join d.base)).filter fun path =>
    !Watch.ignores root (Watch.ignorePatterns s.bundler.profile) path
  let mut tree := d.tree
  for path in paths do
    tree ← refresh d.base tree path
  let seen : Disk := { d with tree }
  let (st, d) ← deliver s terminal json st seen [.changed paths, .built seen.project 0]
  if ended then
    let _ ← deliver s terminal json st d [.closed]
  else follow s terminal json input st d

/-- Runs a command line that was understood. -/
def execute (i : Invocation) : IO UInt32 := do
  let input ← IO.getStdin
  let current := (← IO.currentDir).toString
  let vars := variablesOf (← IO.FS.readBinFile "/proc/self/environ")
  let colored := Usage.isColored i.noColor vars (← (← IO.getStderr).isTty)
  let s : Surroundings :=
    { current, vars, tools := Shell.toolbox, terminal := { colored } }
  let (paths, ended) ← readLines input []
  let mut tree := (FileTree.empty.put [] .dir).put (Location.ofPath current ".") .dir
  for path in paths do
    tree ← refresh current tree path
  let d : Disk := { tree, base := current }
  match i.command with
  | .build mode json =>
    let started ← IO.monoMsNow
    let (outcome, after) ← IO.lazyPure fun _ => s.runBuild i mode json d
    let durationMs := (← IO.monoMsNow) - started
    store d.tree after.tree
    tell (s.buildTranscript mode json durationMs outcome)
    match outcome.1 with
    | .ok _ => return 0
    | .error e => fail e
  | .dev noHot json =>
    match s.session i noHot d with
    | .error e => fail e
    | .ok session =>
      tell (s.watching session json)
      let (st, d) ← deliver session s.terminal json {} d [.begun, .built d.project 0]
      if !ended then follow session s.terminal json input st d
      return 0

end Bindery.CommandLine

def main (args : List String) : IO UInt32 := do
  match Bindery.Arguments.parse args with
  | .ok i => Bindery.CommandLine.execute i
  | .error e =>
    let output ← if e.exitCode = 0 then IO.getStdout else IO.getStderr
    output.putStr (Bindery.Usage.message e ++ "\n")
    return e.exitCode.toUInt32
