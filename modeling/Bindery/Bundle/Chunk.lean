import Bindery.Graph.Basic

/-!
# Chunks

A chunk is a set of modules that are delivered together. Which chunks an entry needs, and which of
them from the start, follows from the graph and the owners of its modules.
-/

namespace Bindery

/-- Why a chunk is there. -/
inductive ChunkKind where
  /-- It is loaded at the start of an entry. -/
  | initial
  /-- It is loaded on demand. -/
  | async
  /-- It is shared, or gathers the modules of a named group. -/
  | shared
  deriving DecidableEq, Repr

/-- Modules that are delivered together. -/
structure Chunk where
  name : String
  kind : ChunkKind
  /-- The entry that the chunk starts. -/
  entry : Option String
  /-- The named group that made the chunk. -/
  group : Option String
  /-- The members in the order of ids. -/
  modules : List ModuleId
  /-- The sum of the sizes of the members' sources. -/
  size : Nat
  deriving DecidableEq, Repr

namespace Chunk

def isEntry (c : Chunk) : Bool := c.entry.isSome

/-- Halves a stretch of `size` places from `base` on until one is left. Where ids are in order, none
before that place and none behind it is the wanted one. -/
def halve (ids : List ModuleId) (id : ModuleId) (base size : Nat) : Nat :=
  if size ≤ 1 then base
  else
    let middle := base + size / 2
    halve ids id (if ids[middle]?.any (id < ·) then base else middle) (size - size / 2)
termination_by size

/-- Looks a member up by halving. -/
def contains (c : Chunk) (id : ModuleId) : Bool :=
  c.modules[halve c.modules id 0 c.modules.length]? = some id

end Chunk

/-- The chunks of a build, in the order in which they are written. -/
abbrev ChunkSet := List Chunk

namespace ChunkSet

/-- The place of the first chunk that holds a module. -/
def owner? (chunks : ChunkSet) (id : ModuleId) : Option Nat :=
  chunks.findIdx? (·.modules.contains id)

/-- The first chunk that holds a module. -/
def chunkOf? (chunks : ChunkSet) (id : ModuleId) : Option Chunk :=
  chunks.find? (·.modules.contains id)

/-- The chunk that starts an entry. -/
def entryChunk? (chunks : ChunkSet) (entry : String) : Option Chunk :=
  chunks.find? (·.entry = some entry)

/-- The place of the chunk that starts an entry. -/
def entryIndex? (chunks : ChunkSet) (entry : String) : Option Nat :=
  chunks.findIdx? (·.entry = some entry)

/-- The chunks that an entry needs, each with whether it is needed from the start. Those come
first, the chunk of the entry itself last among them, so that it starts when everything that it
needs is there. Within each part the chunks keep their order. -/
def forEntry (chunks : ChunkSet) (g : ModuleGraph) (entry : String) : List (Nat × Bool) :=
  match g.entries.lookup entry with
  | none => []
  | some roots =>
    let eager := (g.staticClosure roots).filterMap chunks.owner?
    let all := (g.fullClosure roots).filterMap chunks.owner?
    let own := chunks.entryIndex? entry
    let places := List.range chunks.length
    let first := places.filter fun i => some i != own && eager.contains i
    let upFront := first ++ own.toList
    let later := places.filter fun i => all.contains i && !upFront.contains i
    upFront.map (·, true) ++ later.map (·, false)

end ChunkSet

end Bindery
