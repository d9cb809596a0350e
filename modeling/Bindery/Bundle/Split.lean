import Bindery.Bundle.Chunk
import Bindery.Bundle.Slot
import Bindery.Profile.Basic

/-!
# Splitting a graph

In development every entry has one chunk with all that it can ever load. In production each code
module is in exactly one chunk: the first named group that claims it; or the chunk of the only
entry that reaches it; or a chunk for just the entries that share it. A module that no entry loads
at its start lies behind boundaries, the targets of dynamic imports, and is gathered with the
modules behind the same ones.
-/

namespace Bindery

namespace Split

/-- A base with a number, where one is needed: the first candidate is the base alone. -/
def candidateName (base : String) (n : Nat) : String :=
  if n = 0 then base else base ++ "-" ++ toString (n + 1)

/-- The first name made from a base that is not taken. Among more candidates than there are taken
names one is always free. -/
def uniqueName (base : String) (taken : List String) : String :=
  let base := if base = "" then "chunk" else base
  let candidates := (List.range (taken.length + 1)).map (candidateName base)
  (candidates.find? fun name => !taken.contains name).getD base

/-- The places of the lists that hold a module. -/
def placesOf (id : ModuleId) (lists : List (List ModuleId)) : List Nat :=
  (List.range lists.length).filter fun i => (lists.getD i []).contains id

/-- A place where loading on demand begins. -/
structure Boundary where
  name : String
  /-- What is loaded there, apart from what some entry has loaded at its start. -/
  modules : List ModuleId

/-- What a graph is split by. -/
structure Plan where
  entries : List String
  groups : List ChunkGroup
  /-- The code modules that some entry loads at its start. -/
  eager : List ModuleId
  /-- All that each entry reaches. -/
  reach : List (List ModuleId)
  boundaries : List Boundary

/-- The boundary at a module. Its name differs from all that are taken. -/
def boundaryAt (g : ModuleGraph) (free : ModuleId → Bool) (taken : List String)
    (root : ModuleId) : Boundary :=
  { name := uniqueName root.fileStem taken, modules := (g.staticClosure [root]).filter free }

/-- Adds a boundary behind those that are there. -/
def addBoundary (g : ModuleGraph) (free : ModuleId → Bool) (taken : List String)
    (boundaries : List Boundary) (root : ModuleId) : List Boundary :=
  boundaries ++ [boundaryAt g free (taken ++ boundaries.map (·.name)) root]

/-- Adds a boundary at a module unless it lies behind one already. -/
def addStraggler (g : ModuleGraph) (free : ModuleId → Bool) (taken : List String)
    (boundaries : List Boundary) (root : ModuleId) : List Boundary :=
  if boundaries.any (·.modules.contains root) then boundaries
  else addBoundary g free taken boundaries root

/-- The boundaries: the targets of dynamic imports in order, then what nothing else leads to.
`free` holds for code that no entry loads at its start. -/
def boundaries (g : ModuleGraph) (free : ModuleId → Bool) (taken : List String) :
    List Boundary :=
  let targets := (g.dynamicTargets.filter free).mergeSort ModuleId.le
  let found := targets.foldl (addBoundary g free taken) []
  (g.ids.filter free).foldl (addStraggler g free taken) found

/-- The plan for a graph. -/
def plan (g : ModuleGraph) (groups : List ChunkGroup) (assets : List ModuleId) : Plan :=
  let isCode (id : ModuleId) := !assets.contains id
  let eager := (g.entries.flatMap fun e => g.staticClosure e.2).filter isCode
  let entries := g.entries.map (·.1)
  { entries, groups, eager
    reach := g.entries.map fun e => g.fullClosure e.2
    boundaries := boundaries g (fun id => isCode id && !eager.contains id)
      (entries ++ groups.map (·.name)) }

/-- The first group that claims a module. -/
def claimingGroup? (groups : List ChunkGroup) (id : ModuleId) (isEager : Bool) : Option Nat :=
  groups.findIdx? fun group =>
    (match group.chunks with
      | .all => true
      | .initial => isEager
      | .async => !isEager) && group.test.isMatch id.text

/-- The slot for what several share, or for what belongs to one alone. -/
def sharedSlot (names : List String) (alone : Nat → Slot) (shared : List String → Slot) :
    List Nat → Option Slot
  | [] => none
  | [i] => some (alone i)
  | places => some (shared (places.map fun i => names.getD i ""))

namespace Plan

/-- Where a code module lands. -/
def slot? (p : Plan) (id : ModuleId) : Option Slot :=
  let isEager := p.eager.contains id
  match claimingGroup? p.groups id isEager with
  | some i => some (.group i)
  | none =>
    if isEager then sharedSlot p.entries .entry .sharedInitial (placesOf id p.reach)
    else
      sharedSlot (p.boundaries.map (·.name)) .async .sharedAsync
        (placesOf id (p.boundaries.map (·.modules)))

/-- The slots of all code modules. Every entry has a slot, even an empty one. -/
def slots (p : Plan) (code : List ModuleId) : SlotMap :=
  let start : SlotMap := (List.range p.entries.length).map fun i => (.entry i, [])
  code.foldl (fun done id =>
    match p.slot? id with
    | some s => SlotMap.append s [id] done
    | none => done) start

/-- The name that the chunk of a slot asks for. -/
def baseName (p : Plan) : Slot → String
  | .entry i => p.entries.getD i ""
  | .group i => (p.groups.map (·.name)).getD i ""
  | .sharedInitial names => String.intercalate "~" names
  | .sharedAsync names => String.intercalate "~" names
  | .async i => (p.boundaries.map (·.name)).getD i ""

/-- Why the chunk of a slot is there. -/
def kind : Slot → ChunkKind
  | .entry _ => .initial
  | .async _ => .async
  | _ => .shared

/-- The chunk of a slot. -/
def chunk (p : Plan) (g : ModuleGraph) (taken : List String) (slot : Slot)
    (ids : List ModuleId) : Chunk :=
  let modules := ids.mergeSort ModuleId.le
  { name := uniqueName (p.baseName slot) taken
    kind := kind slot
    entry := match slot with
      | .entry _ => some (p.baseName slot)
      | _ => none
    group := match slot with
      | .group _ => some (p.baseName slot)
      | _ => none
    modules, size := g.totalSize modules }

/-- The chunks of slots, in order; each has a name of its own. -/
def chunks (p : Plan) (g : ModuleGraph) (slots : SlotMap) : ChunkSet :=
  slots.foldl (fun done s => done ++ [p.chunk g (done.map (·.name)) s.1 s.2]) []

end Plan

/-- Chunks that share what several entries need. -/
def shared (g : ModuleGraph) (settings : SplitSettings) (assets : List ModuleId) : ChunkSet :=
  let p := plan g settings.groups assets
  let code := g.ids.filter fun id => !assets.contains id
  p.chunks g (SlotMap.mergeSmall g settings.minSize (p.slots code))

/-- One chunk for each entry, with all that it can load. -/
def perEntry (g : ModuleGraph) (assets : List ModuleId) : ChunkSet :=
  g.entries.map fun (name, roots) =>
    let code := (g.fullClosure roots).filter fun id => !assets.contains id
    let modules := code.mergeSort ModuleId.le
    { name, kind := .initial, entry := some name, group := none, modules,
      size := g.totalSize modules }

end Split

/-- Splits the code modules of a graph; copies are in no chunk. -/
def ModuleGraph.split (g : ModuleGraph) (p : Profile) (assets : List ModuleId) : ChunkSet :=
  match p.split? with
  | some settings => Split.shared g settings assets
  | none => Split.perEntry g assets

end Bindery
