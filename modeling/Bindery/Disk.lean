import Bindery.FileTree

/-!
# Working on a disk

A disk is a file tree that single steps change. Each step can fail for a reason that lies in the
tree; beyond that a disk can be given faults, which make the steps with certain numbers fail. A
failed step changes nothing, and the steps after it go on from what is there.
-/

namespace Bindery

/-- Why a step failed. -/
inductive DiskError where
  | missing
  | taken
  | notDirectory
  | isDirectory
  | nameTooLong
  /-- A path that names no entry of a directory. -/
  | busy
  /-- A path with a character that no path can have. -/
  | invalidName
  /-- A fault of the device. -/
  | device
  deriving DecidableEq, Repr

def DiskError.message : DiskError → String
  | .missing => "No such file or directory (os error 2)"
  | .taken => "File exists (os error 17)"
  | .notDirectory => "Not a directory (os error 20)"
  | .isDirectory => "Is a directory (os error 21)"
  | .nameTooLong => "File name too long (os error 36)"
  | .busy => "Device or resource busy (os error 16)"
  | .invalidName => "file name contained an unexpected NUL byte"
  | .device => "Input/output error (os error 5)"

/-- A disk at one moment. -/
structure Disk where
  tree : FileTree
  /-- The directory from which relative paths are seen. -/
  base : String
  /-- How many steps have been taken. -/
  steps : Nat := 0
  /-- The steps that fail whatever the tree is like. -/
  faults : Nat → Bool := fun _ => false
  /-- How many bytes are in a file when the step that fills it fails. -/
  torn : Nat → Nat := fun _ => 0

/-- Work on a disk. What was done before a failure stays done. -/
abbrev DiskM := ExceptT DiskError (StateM Disk)

namespace Disk

/-- The longest name of a file or directory, in bytes. -/
def nameLimit : Nat := 255

/-- Follows components from a directory. All directories on the way must exist. -/
def walk (t : FileTree) (from_ : Location) : List Path.Component → Except DiskError Location
  | [] => .ok from_
  | .root :: r => walk t [] r
  | c :: r =>
    if !(from_.isEmpty || t.isDir from_) then
      .error (if t.isFile from_ then .notDirectory else .missing)
    else
      match c with
      | .name s =>
        if s.utf8ByteSize ≤ nameLimit then walk t (from_ ++ [s]) r else .error .nameTooLong
      | .up => walk t from_.dropLast r
      | _ => walk t from_ r

/-- The location that a path leads to. -/
def locate (d : Disk) (path : String) : Except DiskError Location :=
  if path.toList.contains '\x00' then .error .invalidName
  else walk d.tree [] (Path.components (Path.join d.base path))

/-- Whether a path leads to a directory. -/
def isDir (d : Disk) (path : String) : Bool :=
  match d.locate path with
  | .ok loc => loc.isEmpty || d.tree.isDir loc
  | .error _ => false

/-- Whether a path leads to anything. -/
def has (d : Disk) (path : String) : Bool :=
  match d.locate path with
  | .ok loc => loc.isEmpty || d.tree.has loc
  | .error _ => false

/-- One step: it fails by a fault of the disk, because the path leads nowhere, or because of what
the tree is like there. -/
def step (path : String) (change : FileTree → Location → Except DiskError FileTree) :
    DiskM Unit := fun d =>
  let counted := { d with steps := d.steps + 1 }
  if d.faults d.steps then (.error .device, counted)
  else
    match (d.locate path).bind (change d.tree) with
    | .ok t => (.ok (), { counted with tree := t })
    | .error e => (.error e, counted)

/-- Makes one directory. -/
def makeDirectory (path : String) : DiskM Unit :=
  step path fun t loc =>
    if loc.isEmpty || t.has loc then .error .taken else .ok (t.put loc .dir)

/-- Makes a directory and those above it that are missing. A directory that is there already is
fine. -/
def makeDirectories : (fuel : Nat) → (path : String) → DiskM Unit
  | 0, _ => throw .missing
  | fuel + 1, path => do
    if path = "" then return
    let made ← tryCatch (do makeDirectory path; pure none) fun e => pure (some e)
    match made with
    | none => return
    | some .missing =>
      match Path.parent? path with
      | none => throw .missing
      | some parent =>
        makeDirectories fuel parent
        tryCatch (makeDirectory path) fun e => do
          if !(← get).isDir path then throw e
    | some e => if !(← get).isDir path then throw e

/-- Makes a directory and those above it that are missing. -/
def ensureDirectory (path : String) : DiskM Unit :=
  makeDirectories ((Path.components path).length + 1) path

/-- Makes an empty file, or empties the one that is there. -/
def createFile (path : String) : DiskM Unit :=
  step path fun t loc =>
    if loc.isEmpty || t.isDir loc then .error .isDirectory
    else .ok (t.put loc (.file ByteArray.empty))

/-- Fills a file that was just made. By a fault it is filled in part. -/
def fillFile (path : String) (bytes : ByteArray) : DiskM Unit := fun d =>
  if d.faults d.steps then
    let part := bytes.extract 0 (d.torn d.steps)
    let t := match d.locate path with
      | .ok loc => d.tree.put loc (.file part)
      | .error _ => d.tree
    (.error .device, { d with tree := t, steps := d.steps + 1 })
  else step path (fun t loc => .ok (t.put loc (.file bytes))) d

/-- Makes a file with some content. -/
def writeFile (path : String) (bytes : ByteArray) : DiskM Unit := do
  createFile path
  fillFile path bytes

/-- Makes sure that a file or directory has reached the device. -/
def sync (path : String) : DiskM Unit := step path fun t _ => .ok t

/-- Why a file cannot take the place of a directory. This depends on how the path ends: a separator
asks for a directory, and points or nothing but separators do not name what could be replaced. -/
def refusal (target : String) : DiskError :=
  if target = "" then .missing
  else
    match (target.toList.splitOn '/').reverse.dropWhile (· = []) with
    | [] => .busy
    | last :: _ =>
      if last = ['.'] || last = ['.', '.'] then .busy
      else if target.toList.getLast? = some '/' then .notDirectory
      else .isDirectory

/-- Gives a file another path. A file that is there is replaced, a directory is not. -/
def rename (source target : String) : DiskM Unit := do
  let d ← get
  step target fun t loc =>
    match d.locate source with
    | .error e => .error e
    | .ok old =>
      match t.read? old with
      | none => .error .missing
      | some bytes =>
        if loc.isEmpty || t.isDir loc then .error (refusal target)
        else .ok ((t.erase old).put loc (.file bytes))

/-- Removes a file. -/
def removeFile (path : String) : DiskM Unit :=
  step path fun t loc =>
    if t.isFile loc then .ok (t.erase loc)
    else .error (if loc.isEmpty || t.isDir loc then .isDirectory else .missing)

/-- Does a step whose failure does not matter. -/
def quietly (m : DiskM Unit) : DiskM Unit := tryCatch m fun _ => pure ()

/-- Removes everything below a directory. A directory that is not there is fine. -/
def clearDirectory (path : String) : DiskM Unit := fun d =>
  let counted := { d with steps := d.steps + 1 }
  if d.faults d.steps then (.error .device, counted)
  else
    match d.locate path with
    | .error .missing => (.ok (), counted)
    | .error e => (.error e, counted)
    | .ok loc =>
      if loc.isEmpty || d.tree.isDir loc then
        let kept : FileTree := ⟨d.tree.nodes.filter fun n => !(loc.isPrefixOf n.1 && n.1 != loc)⟩
        (.ok (), { counted with tree := kept.put loc .dir })
      else if d.tree.isFile loc then (.error .notDirectory, counted)
      else (.ok (), counted)

end Disk

end Bindery
