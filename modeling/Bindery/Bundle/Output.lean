import Bindery.Bundle.Artifact
import Bindery.Bundle.Error
import Bindery.Disk
import Bindery.Text.Escaped

/-!
# Writing output

A batch of files is written all or nothing: every name is checked before anything is written, every
file is first written beside its place, and only when all of them are there do they take their
places. When something fails, what was written beside is removed again.
-/

namespace Bindery

/-- Work on a disk that can fail as a build fails. What was done before a failure stays done. -/
abbrev OutputM := ExceptT BuildError (StateM Disk)

namespace Output

/-- Work on the disk whose failure concerns a path. -/
def forPath (path : String) (work : DiskM α) : OutputM α := fun d =>
  match work d with
  | (.ok a, d) => (.ok a, d)
  | (.error e, d) => (.error (.write path e.message), d)

/-- A directory as an absolute path, seen from where relative paths are seen. -/
def absolute (base directory : String) : String :=
  let cleaned := Path.clean directory
  if Path.isAbsolute cleaned then cleaned else Path.clean (Path.join base cleaned)

/-- The path of a file below a directory. Names that are no names, and names that lead out of the
directory or to itself, are refused. -/
def target? (directory file : String) : Except BuildError String :=
  if file = "" || file.toList.contains '\x00' then
    .error (.invalidOutputPath ("invalid file name " ++ Text.shown file))
  else
    let full := Path.clean (Path.join directory (Path.clean file))
    if !Path.isBelow directory full || Path.components full = Path.components directory then
      .error (.invalidOutputPath
        ("'" ++ file ++ "' escapes output directory '" ++ directory ++ "'"))
    else .ok full

/-- Where a file is written before it takes its place. -/
def tempPath (target : String) : String := target ++ ".sheaf-tmp"

/-- Removes files; what cannot be removed stays. -/
def discard (paths : List String) : DiskM Unit :=
  match paths with
  | [] => pure ()
  | p :: r => do
    Disk.quietly (Disk.removeFile p)
    discard r

/-- Writes a file beside its place. -/
def writeBeside (target : String) (bytes : ByteArray) : DiskM Unit := do
  match Path.parent? target with
  | some directory => Disk.ensureDirectory directory
  | none => pure ()
  Disk.writeFile (tempPath target) bytes

/-- Writes all files beside their places. `done` holds what has been written; when a file cannot be
written all of it is removed. -/
def writeAllBeside (done : List String) : List (String × ByteArray) → OutputM Unit
  | [] => pure ()
  | (target, bytes) :: r => do
    forPath target (tryCatch (writeBeside target bytes) fun e => do
      discard done
      Disk.quietly (Disk.removeFile (tempPath target))
      throw e)
    writeAllBeside (done ++ [tempPath target]) r

/-- Lets all files take their places. When one cannot, it and those after it are removed. -/
def placeAll : List String → OutputM Unit
  | [] => pure ()
  | target :: r => do
    forPath target (tryCatch (Disk.rename (tempPath target) target) fun e => do
      discard ((target :: r).map tempPath)
      throw e)
    placeAll r

/-- Writes files below a directory, all or nothing, and gives their paths. -/
def writeArtifacts (directory : String) (artifacts : List Artifact) : OutputM (List String) := do
  let directory := absolute (← get).base directory
  forPath directory (Disk.ensureDirectory directory)
  let targets ← artifacts.mapM fun a => liftExcept (target? directory a.file)
  writeAllBeside [] (targets.zip (artifacts.map (·.bytes)))
  placeAll targets
  return targets
where
  liftExcept (r : Except BuildError String) : OutputM String := fun d => (r, d)

/-- Tries to see to it that the directory of a file has reached the device. Not every device allows
it. -/
def syncParent (path : String) : DiskM Unit :=
  match Path.parent? path with
  | some directory => Disk.quietly (Disk.sync directory)
  | none => pure ()

/-- Writes a file where it waits, sees to it that it has reached the device, and lets it take its
place. -/
def settle (path : String) (bytes : ByteArray) : DiskM Unit := do
  Disk.writeFile (tempPath path) bytes
  Disk.sync (tempPath path)
  Disk.rename (tempPath path) path
  syncParent path

/-- Writes one file so that it is either all there or as it was before. -/
def writeDurably (path : String) (bytes : ByteArray) : OutputM Unit := do
  match Path.parent? path with
  | some directory => forPath (Path.parentText path) (Disk.ensureDirectory directory)
  | none => pure ()
  forPath path (tryCatch (settle path bytes) fun e => do
    Disk.quietly (Disk.removeFile (tempPath path))
    throw e)

/-- Removes everything below a directory. -/
def clear (directory : String) : OutputM Unit := forPath directory (Disk.clearDirectory directory)

end Output

end Bindery
