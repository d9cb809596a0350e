import Mathlib.Algebra.GroupWithZero.Nat
import Mathlib.Data.List.Nodup
import Mathlib.Data.List.Flatten
import Bindery.Proofs.Bundle.Plan

/-!
# Splitting is a partition

In production the chunks of a graph hold its code modules and nothing else, each in one chunk. The
members of a chunk are in order, so that looking one up by halving finds it, and the chunk is as
large as they are together.

* `Chunk.contains_iff` : halving finds exactly the members of a chunk in order.
* `ChunkSet.Partitions` : what a partition is.
* `split_partitions` : splitting for production is one, whatever the graph, the copies, the smallest
  size and the named groups are.
-/

namespace Bindery

/-! ## Looking members up -/

namespace Chunk

variable {ids : List ModuleId} {id : ModuleId}

/-- Halving keeps the place of an id within the stretch and so ends at it. -/
theorem halve_eq (hord : ids.Pairwise (· < ·)) {base size i : Nat} (hi : ids[i]? = some id)
    (hbase : base ≤ i) (hsize : i < base + size) (hend : base + size ≤ ids.length) :
    halve ids id base size = i := by
  induction size using Nat.strongRecOn generalizing base with
  | _ size ih =>
    unfold halve
    split
    · omega
    · next hlarge =>
      rcases List.getElem?_eq_some_iff.1 hi with ⟨hlt, hget⟩
      -- the middle is behind the wanted place exactly when its id is behind the wanted id
      have hmiddle : ids[base + size / 2]?.any (id < ·) = true ↔
          base + size / 2 < ids.length ∧ i < base + size / 2 := by
        simp only [Option.any_eq_true, decide_eq_true_eq, List.getElem?_eq_some_iff]
        constructor
        · rintro ⟨x, ⟨hm, rfl⟩, hx⟩
          refine ⟨hm, ?_⟩
          by_contra hle
          rcases Nat.lt_or_eq_of_le (Nat.le_of_not_lt hle) with hmi | hmi
          · have := List.pairwise_iff_getElem.1 hord _ _ hm hlt hmi
            exact ModuleId.lt_irrefl _ (ModuleId.lt_trans hx (hget ▸ this))
          · subst hmi
            exact ModuleId.lt_irrefl _ (hget ▸ hx)
        · rintro ⟨hm, him⟩
          refine ⟨_, ⟨hm, rfl⟩, ?_⟩
          exact hget ▸ List.pairwise_iff_getElem.1 hord _ _ hlt hm him
      dsimp only
      split
      · next habove =>
        rcases hmiddle.1 habove with ⟨-, him⟩
        exact ih _ (by omega) hbase (by omega) (by omega)
      · next hbelow =>
        have him : ¬(base + size / 2 < ids.length ∧ i < base + size / 2) := mt hmiddle.2 hbelow
        exact ih _ (by omega) (by omega) (by omega) (by omega)

/-- In a chunk whose members are in order, halving finds exactly the members. -/
theorem contains_iff {c : Chunk} (hord : c.modules.Pairwise (· < ·)) :
    c.contains id = true ↔ id ∈ c.modules := by
  rw [contains, decide_eq_true_eq]
  constructor
  · exact List.mem_of_getElem?
  · intro hmem
    rcases List.getElem?_of_mem hmem with ⟨i, hi⟩
    rcases List.getElem?_eq_some_iff.1 hi with ⟨hlt, -⟩
    rw [halve_eq hord hi (Nat.zero_le i) (by omega) (by omega)]
    exact hi

end Chunk

/-! ## Partitions -/

namespace ModuleGraph

/-- The size of the source of a module. -/
def sourceSize (g : ModuleGraph) (id : ModuleId) : Nat := ((g.module? id).map Module.size).getD 0

theorem totalSize_eq_sum (g : ModuleGraph) (ids : List ModuleId) :
    g.totalSize ids = (ids.map g.sourceSize).sum := by
  induction ids with
  | nil => rfl
  | cons id r ih =>
    cases h : g.module? id with
    | none => simpa [totalSize, sourceSize, h] using ih
    | some m => simpa [totalSize, total, sourceSize, h] using ih

end ModuleGraph

namespace ChunkSet

/-- The chunk at a place holds a module. -/
def HoldsAt (chunks : ChunkSet) (i : Nat) (id : ModuleId) : Prop :=
  ∃ c, chunks[i]? = some c ∧ id ∈ c.modules

/-- Chunks that hold the code modules of a graph, each once, and nothing else. -/
structure Partitions (g : ModuleGraph) (assets : List ModuleId) (chunks : ChunkSet) : Prop where
  /-- A code module is in exactly one chunk. -/
  placed : ∀ id, g.contains id = true → id ∉ assets → ∃! i, chunks.HoldsAt i id
  /-- A copy is in no chunk, and neither is what the graph does not have. -/
  onlyCode : ∀ c ∈ chunks, ∀ id ∈ c.modules, g.contains id = true ∧ id ∉ assets
  ordered : ∀ c ∈ chunks, c.modules.Pairwise (· < ·)
  found : ∀ c ∈ chunks, ∀ id, c.contains id = true ↔ id ∈ c.modules
  sized : ∀ c ∈ chunks, c.size = (c.modules.map g.sourceSize).sum
  /-- The owner of a module is the one chunk that holds it. -/
  owned : ∀ id i, chunks.owner? id = some i ↔ chunks.HoldsAt i id

/-- Where no module is listed twice, only one chunk holds a module. -/
theorem place_unique {chunks : ChunkSet} (h : (chunks.flatMap (·.modules)).Nodup) {i j : Nat}
    {id : ModuleId} (hi : chunks.HoldsAt i id) (hj : chunks.HoldsAt j id) : i = j := by
  rcases hi with ⟨ci, hci, hidi⟩
  rcases hj with ⟨cj, hcj, hidj⟩
  rcases List.getElem?_eq_some_iff.1 hci with ⟨hli, rfl⟩
  rcases List.getElem?_eq_some_iff.1 hcj with ⟨hlj, rfl⟩
  have hdisjoint := List.pairwise_iff_getElem.1 (List.nodup_flatMap.1 h).2
  rcases Nat.lt_trichotomy i j with hij | hij | hij
  · exact absurd hidj (fun _ => hdisjoint i j hli hlj hij hidi hidj)
  · exact hij
  · exact absurd hidi (fun _ => hdisjoint j i hlj hli hij hidj hidi)

theorem owner?_spec {chunks : ChunkSet} {i : Nat} {id : ModuleId}
    (h : chunks.owner? id = some i) : chunks.HoldsAt i id := by
  rcases List.findIdx?_eq_some_iff_getElem.1 h with ⟨hi, hmem, -⟩
  exact ⟨chunks[i], List.getElem?_eq_getElem hi, List.contains_iff_mem.1 hmem⟩

/-- A module that some chunk holds has an owner. -/
theorem exists_owner? {chunks : ChunkSet} {i : Nat} {id : ModuleId} (h : chunks.HoldsAt i id) :
    ∃ j, chunks.owner? id = some j := by
  rcases h with ⟨c, hc, hid⟩
  rw [← Option.isSome_iff_exists, owner?, List.findIdx?_isSome, List.any_eq_true]
  exact ⟨c, List.mem_of_getElem? hc, List.contains_iff_mem.2 hid⟩

end ChunkSet

/-! ## Splitting for production -/

namespace Split

variable {g : ModuleGraph} {settings : SplitSettings} {assets : List ModuleId} {id : ModuleId}

theorem mem_code : id ∈ code g assets ↔ g.contains id = true ∧ id ∉ assets := by
  simp [code, ModuleGraph.contains_iff]

/-- The chunk at a place is made from the slot at that place. -/
theorem exists_slot_at {c : Chunk} {i : Nat} (hc : (shared g settings assets)[i]? = some c) :
    ∃ s, (finalSlots g settings assets)[i]? = some s ∧ ∃ taken,
      c = (plan g settings.groups assets).chunk g taken s.1 s.2 := by
  rw [shared_eq] at hc
  rcases List.getElem?_eq_some_iff.1 hc with ⟨hlt, rfl⟩
  have hall := Plan.chunks_forall₂ (plan g settings.groups assets) g (finalSlots g settings assets)
  have hlen := hall.length_eq
  exact ⟨_, List.getElem?_eq_getElem (hlen ▸ hlt), hall.get (hlen ▸ hlt) hlt⟩

/-- Every chunk is made from a slot. -/
theorem exists_slot_of_mem {c : Chunk} (hc : c ∈ shared g settings assets) :
    ∃ s ∈ finalSlots g settings assets, ∃ taken,
      c = (plan g settings.groups assets).chunk g taken s.1 s.2 := by
  rcases List.getElem?_of_mem hc with ⟨i, hi⟩
  rcases exists_slot_at hi with ⟨s, hs, hchunk⟩
  exact ⟨s, List.mem_of_getElem? hs, hchunk⟩

/-- Every slot has become a chunk. -/
theorem exists_chunk_of_mem {s : Slot × List ModuleId} (hs : s ∈ finalSlots g settings assets) :
    ∃ c ∈ shared g settings assets, ∃ taken,
      c = (plan g settings.groups assets).chunk g taken s.1 s.2 := by
  rw [shared_eq]
  rcases List.getElem?_of_mem hs with ⟨i, hi⟩
  rcases List.getElem?_eq_some_iff.1 hi with ⟨hlt, rfl⟩
  have hall := Plan.chunks_forall₂ (plan g settings.groups assets) g (finalSlots g settings assets)
  have hlen := hall.length_eq
  exact ⟨_, List.getElem_mem (hlen ▸ hlt), hall.get hlt (hlen ▸ hlt)⟩

/-- The members of all chunks are the code modules of the graph. -/
theorem modules_perm :
    ((shared g settings assets).flatMap (·.modules)).Perm (code g assets) := by
  have hmembers : ∀ {slots : SlotMap} {chunks : ChunkSet},
      List.Forall₂ (fun s c => ∃ taken, c = (plan g settings.groups assets).chunk g taken s.1 s.2)
        slots chunks → (chunks.flatMap (·.modules)).Perm slots.ids := by
    intro slots chunks h
    induction h with
    | nil => exact .refl _
    | cons hc _ ih =>
      rcases hc with ⟨taken, rfl⟩
      exact (List.mergeSort_perm _ _).append ih
  exact (hmembers (Plan.chunks_forall₂ _ g _)).trans (ids_finalSlots g assets settings)

theorem nodup_modules : ((shared g settings assets).flatMap (·.modules)).Nodup :=
  modules_perm.nodup_iff.2 (g.nodup_ids.filter _)

/-- The members of a chunk are in order. -/
theorem ordered_of_mem {c : Chunk} (hc : c ∈ shared g settings assets) :
    c.modules.Pairwise (· < ·) := by
  have hnodup : c.modules.Nodup := (List.nodup_flatMap.1 nodup_modules).1 c hc
  rcases exists_slot_of_mem hc with ⟨s, -, taken, rfl⟩
  -- sorting gives a weak order, and no member is listed twice
  have hle := List.pairwise_mergeSort ModuleId.le_trans ModuleId.le_total s.2
  refine (hle.and hnodup).imp ?_
  rintro a b ⟨hab, hne⟩
  exact ModuleId.lt_of_not_lt (ModuleId.le_iff.1 hab) hne

theorem shared_partitions (g : ModuleGraph) (settings : SplitSettings) (assets : List ModuleId) :
    (shared g settings assets).Partitions g assets where
  placed := by
    intro id hid hcode
    have hmem : id ∈ (shared g settings assets).flatMap (·.modules) :=
      modules_perm.mem_iff.2 (mem_code.2 ⟨hid, hcode⟩)
    rcases List.mem_flatMap.1 hmem with ⟨c, hc, hidc⟩
    rcases List.getElem?_of_mem hc with ⟨i, hi⟩
    exact ⟨i, ⟨c, hi, hidc⟩, fun j hj => ChunkSet.place_unique nodup_modules hj ⟨c, hi, hidc⟩⟩
  onlyCode := by
    intro c hc id hid
    exact mem_code.1 (modules_perm.mem_iff.1 (List.mem_flatMap.2 ⟨c, hc, hid⟩))
  ordered := fun c hc => ordered_of_mem hc
  found := fun c hc id => Chunk.contains_iff (ordered_of_mem hc)
  sized := by
    intro c hc
    rcases exists_slot_of_mem hc with ⟨s, -, taken, rfl⟩
    exact ModuleGraph.totalSize_eq_sum g _
  owned := by
    intro id i
    constructor
    · exact ChunkSet.owner?_spec
    · intro hi
      rcases ChunkSet.exists_owner? hi with ⟨j, hj⟩
      rw [hj, ChunkSet.place_unique nodup_modules hi (ChunkSet.owner?_spec hj)]

/-- Splitting for production is a partition: for every graph, every set of copies and every
setting. -/
theorem split_partitions (g : ModuleGraph) (p : Profile) (settings : SplitSettings)
    (hproduction : p.split? = some settings) (assets : List ModuleId) :
    (g.split p assets).Partitions g assets := by
  simp only [ModuleGraph.split, hproduction]
  exact shared_partitions g settings assets

/-- A script of one letter with some imports. -/
def letter (id : String) (imports : List Import) : Module :=
  { id := ⟨id⟩, path := id, kind := .script, source := "x".toUTF8, imports, hash := ""
    hasGlobalState := false, isStub := false }

/-- Two pages that share a module; the first one loads another one on demand. -/
def twoPages : ModuleGraph :=
  .ofModules [("main", [⟨"main.js"⟩]), ("help", [⟨"help.js"⟩])]
    [letter "main.js"
        [⟨"./util", .static, some ⟨"util.js"⟩⟩, ⟨"./lazy", .dynamic, some ⟨"lazy.js"⟩⟩],
      letter "help.js" [⟨"./util", .static, some ⟨"util.js"⟩⟩], letter "util.js" [],
      letter "lazy.js" []]

/-- Production without merging and without named groups. -/
def unmerged : Profile :=
  .ofLayer { split := some { minSize := some 0, groups := some [] } } .production {}

theorem split_partitions_twoPages :
    unmerged.split? = some { minSize := 0, groups := [] } ∧
      (twoPages.split unmerged []).Partitions twoPages [] :=
  ⟨rfl, split_partitions twoPages unmerged { minSize := 0, groups := [] } rfl []⟩

end Split

end Bindery
