import Bindery.Path

/-!
# File trees

A tree of files and directories as a value. A location is the list of names from the root. A
directory exists when it was made or when something lies below it, so trees that only list files
need not list directories.
-/

namespace Bindery

/-- The names from the root of the file system to a file or directory. -/
abbrev Location := List String

/-- What is found at a location. -/
inductive Node where
  | file (bytes : ByteArray)
  | dir

/-- Files and directories by location; a location is listed once. -/
structure FileTree where
  nodes : List (Location × Node)

namespace FileTree

def empty : FileTree := ⟨[]⟩

/-- Puts a node at a location in place of what was there. -/
def put (t : FileTree) (loc : Location) (n : Node) : FileTree :=
  ⟨(loc, n) :: t.nodes.filter (·.1 != loc)⟩

/-- Removes the node at a location; what lies below stays. -/
def erase (t : FileTree) (loc : Location) : FileTree := ⟨t.nodes.filter (·.1 != loc)⟩

/-- Removes the node at a location and all that lies below. -/
def eraseBelow (t : FileTree) (loc : Location) : FileTree :=
  ⟨t.nodes.filter fun n => !loc.isPrefixOf n.1⟩

/-- The node listed at a location. -/
def find? (t : FileTree) (loc : Location) : Option Node := t.nodes.lookup loc

/-- The content of a file. -/
def read? (t : FileTree) (loc : Location) : Option ByteArray :=
  match t.find? loc with
  | some (.file bytes) => some bytes
  | _ => none

def isFile (t : FileTree) (loc : Location) : Bool := (t.read? loc).isSome

/-- Something lies strictly below the location. -/
def hasBelow (t : FileTree) (loc : Location) : Bool :=
  t.nodes.any fun n => loc.isPrefixOf n.1 && n.1 != loc

/-- A directory was made at the location. -/
def isMadeDir (t : FileTree) (loc : Location) : Bool :=
  match t.find? loc with
  | some .dir => true
  | _ => false

/-- The location holds no file and is a directory, made or implied. -/
def isDir (t : FileTree) (loc : Location) : Bool :=
  !t.isFile loc && (t.isMadeDir loc || t.hasBelow loc)

/-- Something is found at the location. -/
def has (t : FileTree) (loc : Location) : Bool := t.isFile loc || t.isDir loc

/-- Puts a file at a location and makes the directories above it that are not there. -/
def putFile (t : FileTree) (loc : Location) (bytes : ByteArray) : FileTree :=
  let above := (List.range loc.length).map fun n => loc.take n
  let t := above.foldl (fun t d => if t.has d then t else t.put d .dir) t
  t.put loc (.file bytes)

/-- The files with their content. -/
def files (t : FileTree) : List (Location × ByteArray) :=
  t.nodes.filterMap fun
    | (loc, .file bytes) => some (loc, bytes)
    | _ => none

end FileTree

/-- The location that a path means, seen from a directory. -/
def Location.ofPath (base path : String) : Location :=
  (Path.cleanComponents (Path.components (Path.join base path))).filterMap fun
    | .name s => some s
    | _ => none

/-- The absolute path of a location. -/
def Location.toPath (loc : Location) : String := "/" ++ Path.slashed loc

end Bindery
