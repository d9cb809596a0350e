import Bindery.Graph.Basic

/-!
# Differences between graphs

Modules are compared by their digests. What is affected by a difference is everything that
imports a changed or new module.
-/

namespace Bindery

/-- What differs between two snapshots. -/
structure ChangeSet where
  /-- In both, with different content. -/
  modified : IdSet := []
  /-- Only in the newer one. -/
  added : IdSet := []
  /-- Only in the older one. -/
  removed : IdSet := []
  /-- Modified and added modules and all that import them in the newer one. -/
  affected : IdSet := []
  deriving DecidableEq, Repr

namespace ChangeSet

/-- The differences from an older to a newer snapshot. -/
def between (older newer : ModuleGraph) : ChangeSet :=
  let modified := newer.modules.filterMap fun m =>
    match older.module? m.id with
    | some old => if old.hash = m.hash then none else some m.id
    | none => none
  let added := newer.ids.filter fun id => !older.contains id
  { modified, added
    removed := older.ids.filter fun id => !newer.contains id
    affected := newer.ancestors (modified ++ added) }

def hasChanges (c : ChangeSet) : Bool :=
  !c.modified.isEmpty || !c.added.isEmpty || !c.removed.isEmpty

/-- Modules appeared or disappeared. -/
def isStructural (c : ChangeSet) : Bool := !c.added.isEmpty || !c.removed.isEmpty

/-- Everything that changed itself. -/
def changedIds (c : ChangeSet) : IdSet := IdSet.ofList (c.modified ++ c.added ++ c.removed)

/-- A later removal: what was added before is gone without trace. -/
def remove (c : ChangeSet) (id : ModuleId) : ChangeSet :=
  if c.added.contains id then { c with added := c.added.remove id }
  else { c with modified := c.modified.remove id, removed := c.removed.insert id }

/-- A later addition: what was removed before counts as modified. -/
def add (c : ChangeSet) (id : ModuleId) : ChangeSet :=
  if c.removed.contains id then
    { c with removed := c.removed.remove id, modified := c.modified.insert id }
  else { c with added := c.added.insert id }

/-- A later modification: what was added before stays added. -/
def modify (c : ChangeSet) (id : ModuleId) : ChangeSet :=
  if c.added.contains id then c else { c with modified := c.modified.insert id }

/-- Folds later differences into earlier ones. -/
def absorb (earlier later : ChangeSet) : ChangeSet :=
  let c := later.removed.foldl remove earlier
  let c := later.added.foldl add c
  let c := later.modified.foldl modify c
  { c with affected := c.affected.insertAll later.affected }

end ChangeSet

end Bindery
