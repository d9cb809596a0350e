import Bindery.FileTree

/-!
# The files of a project

A file tree together with the directory from which relative paths are seen.
-/

namespace Bindery

/-- Files and the directory from which relative paths are seen. -/
structure Project where
  files : FileTree
  base : String

namespace Project

/-- The location that a path means. -/
def locate (p : Project) (path : String) : Location := Location.ofPath p.base path

def isFile (p : Project) (path : String) : Bool := p.files.isFile (p.locate path)

def has (p : Project) (path : String) : Bool := p.files.has (p.locate path)

def read? (p : Project) (path : String) : Option ByteArray := p.files.read? (p.locate path)

/-- Adds or replaces a file. -/
def insert (p : Project) (path : String) (bytes : ByteArray) : Project :=
  { p with files := p.files.put (p.locate path) (.file bytes) }

/-- Removes a file. -/
def remove (p : Project) (path : String) : Project :=
  { p with files := p.files.erase (p.locate path) }

end Project

end Bindery
