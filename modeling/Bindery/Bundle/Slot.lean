import Bindery.Graph.Basic
import Bindery.Number.Total

/-!
# Slots

While a graph is split, each of its modules has a slot. A slot says what the chunk made from it is
for, and the order of slots is the order of the chunks. Slots that nobody named can be merged when
they are too small, but what is loaded at a start is never merged with what is loaded on demand.
-/

namespace Bindery

/-- What a chunk gathers. Entries, groups and boundaries are named by their places. -/
inductive Slot where
  /-- What only one entry needs at its start. -/
  | entry (place : Nat)
  /-- What a named group claims. -/
  | group (place : Nat)
  /-- What several entries need and at least one of them at its start. -/
  | sharedInitial (names : List String)
  /-- What lies behind several boundaries. -/
  | sharedAsync (names : List String)
  /-- What lies behind one boundary. -/
  | async (place : Nat)
  deriving DecidableEq, Repr

namespace Slot

/-- The position of a slot's class in the order of slots. -/
def rank : Slot → Nat
  | .entry _ => 0
  | .group _ => 1
  | .sharedInitial _ => 2
  | .sharedAsync _ => 3
  | .async _ => 4

/-- The order of slots: by class, then by place or names. -/
def lt (a b : Slot) : Bool :=
  match a, b with
  | .entry m, .entry n => decide (m < n)
  | .group m, .group n => decide (m < n)
  | .async m, .async n => decide (m < n)
  | .sharedInitial x, .sharedInitial y => decide (x < y)
  | .sharedAsync x, .sharedAsync y => decide (x < y)
  | a, b => decide (a.rank < b.rank)

/-- Whether the chunk of a slot is loaded on demand. Slots that never take part in merging have no
answer. -/
def onDemand? : Slot → Option Bool
  | .sharedInitial _ => some false
  | .sharedAsync _ => some true
  | .async _ => some true
  | _ => none

/-- Slots that may be merged into others and others into them. -/
def isMergeable (s : Slot) : Bool := s.onDemand?.isSome

/-- The slot may be merged into the other one: both are loaded at the same time. -/
def canJoin (s target : Slot) : Bool :=
  target != s && target.isMergeable && target.onDemand? == s.onDemand?

end Slot

/-- Slots with their modules, in the order of slots; a slot occurs once. -/
abbrev SlotMap := List (Slot × List ModuleId)

namespace SlotMap

/-- Appends modules to a slot, which is made in its place if it is not there. -/
def append (slot : Slot) (ids : List ModuleId) : SlotMap → SlotMap
  | [] => [(slot, ids)]
  | (s, xs) :: r =>
    if slot = s then (s, xs ++ ids) :: r
    else if slot.lt s then (slot, ids) :: (s, xs) :: r
    else (s, xs) :: append slot ids r

/-- Removes a slot with its modules. -/
def remove (slot : Slot) (slots : SlotMap) : SlotMap := slots.filter (·.1 != slot)

/-- The slot that holds a module. -/
def owner? (slots : SlotMap) (id : ModuleId) : Option Slot :=
  (slots.find? fun s => s.2.contains id).map (·.1)

end SlotMap

namespace ModuleGraph

/-- The sum of the sizes of some modules' sources. -/
def totalSize (g : ModuleGraph) (ids : List ModuleId) : Nat :=
  total ((ids.filterMap g.module?).map Module.size)

end ModuleGraph

namespace SlotMap

/-- The slots that are too small, the smallest first and equally small ones in order. -/
def tooSmall (g : ModuleGraph) (minSize : Nat) (slots : SlotMap) :
    List (Slot × List ModuleId) :=
  let small := (slots.filter fun s => s.1.isMergeable).filter fun s => g.totalSize s.2 < minSize
  small.mergeSort fun a b => g.totalSize a.2 ≤ g.totalSize b.2

/-- The first slot with a direct importer of a slot's modules that the slot may be merged into. -/
def joinTarget? (g : ModuleGraph) (slots : SlotMap) (source : Slot × List ModuleId) :
    Option Slot :=
  let importers := (source.2.flatMap g.dependents).map (·.importer)
  (importers.filterMap slots.owner?).find? source.1.canJoin

/-- The next merge: a slot, its modules and the slot that takes them. -/
def nextMerge? (g : ModuleGraph) (minSize : Nat) (slots : SlotMap) :
    Option ((Slot × List ModuleId) × Slot) :=
  (slots.tooSmall g minSize).findSome? fun s => (slots.joinTarget? g s).map (s, ·)

/-- Moves the modules of a slot to the end of another one. -/
def merge (slots : SlotMap) (source : Slot × List ModuleId) (target : Slot) : SlotMap :=
  append target source.2 (slots.remove source.1)

/-- Merges until nothing moves. Every merge removes a slot, so there are fewer merges than
slots. -/
def mergeAll (g : ModuleGraph) (minSize : Nat) : (fuel : Nat) → SlotMap → SlotMap
  | 0, slots => slots
  | fuel + 1, slots =>
    match slots.nextMerge? g minSize with
    | none => slots
    | some (source, target) => mergeAll g minSize fuel (slots.merge source target)

/-- Merges slots that are too small into slots that ask for them. -/
def mergeSmall (g : ModuleGraph) (minSize : Nat) (slots : SlotMap) : SlotMap :=
  mergeAll g minSize slots.length slots

end SlotMap

end Bindery
