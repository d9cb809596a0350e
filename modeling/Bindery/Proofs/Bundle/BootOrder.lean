import Bindery.Proofs.Bundle.EntryLoading

/-!
# The order in which an entry loads its chunks

Chunks that share what several entries need have to be there before an entry starts. The list of an
entry names the chunks that hold something it loads at its start, its own chunk behind them, and
then the chunks that hold something it may ask for later. Within the two parts the chunks keep their
order.

* `ChunkSet.NeededAtStart` : the chunks that an entry needs before it starts.
* `ChunkSet.forEntry_eq` : the parts of the list.
* `ChunkSet.BootOrdered` : what the list is, in terms of what imports lead to.
* `Split.split_forEntry_bootOrdered` : the list of every entry is that in production.
-/

namespace Bindery

namespace ChunkSet

variable {chunks : ChunkSet} {g : ModuleGraph} {assets : List ModuleId} {e : String}
  {roots : List ModuleId} {i own : Nat}

/-- The chunk at a place is the one that starts an entry, or holds something that is loaded together
with the roots of the entry. -/
def NeededAtStart (chunks : ChunkSet) (g : ModuleGraph) (e : String) (roots : List ModuleId)
    (i : Nat) : Prop :=
  chunks.StartsAt i e ∨ ∃ id, chunks.HoldsAt i id ∧ g.Loads roots id

/-- Chunks that an entry needs, each with whether it is needed from the start, as they have to be
listed. -/
structure BootOrdered (g : ModuleGraph) (assets : List ModuleId) (chunks : ChunkSet) (e : String)
    (roots : List ModuleId) (listed : List (Nat × Bool)) : Prop where
  once : (listed.map (·.1)).Nodup
  eager : ∀ i, (i, true) ∈ listed ↔ chunks.NeededAtStart g e roots i
  onDemand : ∀ i, (i, false) ∈ listed ↔
    ¬chunks.NeededAtStart g e roots i ∧ ∃ id, chunks.HoldsAt i id ∧ g.Reaches roots id
  /-- All code that the entry loads at its start is in a chunk that is needed from the start. -/
  loads : ∀ id, id ∉ assets → g.Loads roots id → ∃ i, (i, true) ∈ listed ∧ chunks.HoldsAt i id
  /-- All code that the entry reaches is in a chunk that is listed. -/
  reaches : ∀ id, id ∉ assets → g.Reaches roots id →
    ∃ i now, (i, now) ∈ listed ∧ chunks.HoldsAt i id
  /-- The chunks that are needed from the start come first, the one that starts the entry last among
  them; the others keep their order. -/
  ordered : ∃ (before : List Nat) (own : Nat) (after : List Nat),
    listed = before.map (·, true) ++ (own, true) :: after.map (·, false) ∧
      chunks.StartsAt own e ∧ before.Pairwise (· < ·) ∧ after.Pairwise (· < ·)

/-! ## The parts of the list -/

/-- The places of the chunks that an entry needs before its own one. -/
def placesBefore (chunks : ChunkSet) (g : ModuleGraph) (roots : List ModuleId) (own : Nat) :
    List Nat :=
  (List.range chunks.length).filter fun i =>
    some i != some own && ((g.staticClosure roots).filterMap chunks.owner?).contains i

/-- The places of the chunks that an entry may ask for later. -/
def placesAfter (chunks : ChunkSet) (g : ModuleGraph) (roots : List ModuleId) (own : Nat) :
    List Nat :=
  (List.range chunks.length).filter fun i =>
    ((g.fullClosure roots).filterMap chunks.owner?).contains i &&
      !(chunks.placesBefore g roots own ++ [own]).contains i

/-- The list of an entry that has a chunk of its own. -/
theorem forEntry_eq (hroots : g.entries.lookup e = some roots)
    (hown : chunks.entryIndex? e = some own) :
    chunks.forEntry g e = (chunks.placesBefore g roots own).map (·, true) ++
      (own, true) :: (chunks.placesAfter g roots own).map (·, false) := by
  unfold forEntry
  rw [hroots, hown]
  show ((chunks.placesBefore g roots own ++ [own]).map (·, true)) ++
    (chunks.placesAfter g roots own).map (·, false) = _
  rw [List.map_append, List.append_assoc]
  rfl

theorem lt_of_holdsAt {id : ModuleId} (h : chunks.HoldsAt i id) : i < chunks.length := by
  obtain ⟨c, hc, -⟩ := h
  exact (List.getElem?_eq_some_iff.1 hc).1

/-- The owners of some modules are the places that hold one of them. -/
theorem Partitions.mem_owners (h : chunks.Partitions g assets) {ids : List ModuleId} :
    i ∈ ids.filterMap chunks.owner? ↔ ∃ id, chunks.HoldsAt i id ∧ id ∈ ids := by
  rw [List.mem_filterMap]
  apply exists_congr
  intro id
  rw [h.owned, and_comm]

theorem mem_placesBefore (h : chunks.Partitions g assets) :
    i ∈ chunks.placesBefore g roots own ↔
      i ≠ own ∧ ∃ id, chunks.HoldsAt i id ∧ g.Loads roots id := by
  simp only [placesBefore, List.mem_filter, List.mem_range, Bool.and_eq_true, bne_iff_ne,
    List.contains_iff_mem, h.mem_owners, ModuleGraph.mem_staticClosure_iff, ne_eq,
    Option.some.injEq]
  constructor
  · rintro ⟨-, hne, hholds⟩
    exact ⟨hne, hholds⟩
  · rintro ⟨hne, id, hid, hloads⟩
    exact ⟨lt_of_holdsAt hid, hne, id, hid, hloads⟩

theorem mem_placesAfter (h : chunks.Partitions g assets) :
    i ∈ chunks.placesAfter g roots own ↔
      (i ∉ chunks.placesBefore g roots own ∧ i ≠ own) ∧
        ∃ id, chunks.HoldsAt i id ∧ g.Reaches roots id := by
  simp only [placesAfter, List.mem_filter, List.mem_range, Bool.and_eq_true, Bool.not_eq_true',
    ← Bool.not_eq_true, List.contains_iff_mem, h.mem_owners, ModuleGraph.mem_fullClosure_iff,
    List.mem_append, List.mem_singleton, not_or]
  constructor
  · rintro ⟨-, hholds, hlater⟩
    exact ⟨hlater, hholds⟩
  · rintro ⟨hlater, id, hid, hreaches⟩
    exact ⟨lt_of_holdsAt hid, ⟨id, hid, hreaches⟩, hlater⟩

/-! ## The list -/

/-- A place is listed as needed from the start exactly when it comes before the own chunk or is its
place. -/
theorem mem_eager_iff {before after : List Nat} :
    (i, true) ∈ before.map (·, true) ++ (own, true) :: after.map (·, false) ↔
      i ∈ before ∨ i = own := by
  simp

theorem mem_onDemand_iff {before after : List Nat} :
    (i, false) ∈ before.map (·, true) ++ (own, true) :: after.map (·, false) ↔ i ∈ after := by
  simp

/-- No chunk is listed twice: the own one is left out of the others, and those that may be asked for
later are none of those before. -/
theorem nodup_forEntry (h : chunks.Partitions g assets) (hroots : g.entries.lookup e = some roots)
    (hown : chunks.entryIndex? e = some own) : ((chunks.forEntry g e).map (·.1)).Nodup := by
  have hplaces : (chunks.forEntry g e).map (·.1) =
      chunks.placesBefore g roots own ++ own :: chunks.placesAfter g roots own := by
    simp [forEntry_eq hroots hown, Function.comp_def]
  have hbefore : (chunks.placesBefore g roots own).Nodup := List.nodup_range.filter _
  have hafter : (chunks.placesAfter g roots own).Nodup := List.nodup_range.filter _
  have hownBefore : own ∉ chunks.placesBefore g roots own := by
    intro hmem
    exact ((mem_placesBefore h).1 hmem).1 rfl
  have hownAfter : own ∉ chunks.placesAfter g roots own := by
    intro hmem
    exact ((mem_placesAfter h).1 hmem).1.2 rfl
  rw [hplaces]
  apply hbefore.append (List.nodup_cons.2 ⟨hownAfter, hafter⟩)
  intro i hi hi'
  rcases List.mem_cons.1 hi' with rfl | hi'
  · exact hownBefore hi
  · exact ((mem_placesAfter h).1 hi').1.1 hi

/-- Where one chunk alone starts an entry, the entry needs it and those before it. -/
theorem neededAtStart_iff (h : chunks.Partitions g assets) (hstarts : chunks.StartsAt own e)
    (honly : ∀ i, chunks.StartsAt i e → i = own) :
    chunks.NeededAtStart g e roots i ↔ i ∈ chunks.placesBefore g roots own ∨ i = own := by
  rw [mem_placesBefore h]
  constructor
  · intro hneeded
    by_cases hi : i = own
    · exact .inr hi
    · rcases hneeded with hstart | hholds
      · exact absurd (honly i hstart) hi
      · exact .inl ⟨hi, hholds⟩
  · rintro (⟨-, hholds⟩ | rfl)
    · exact .inr hholds
    · exact .inl hstarts

/-- Where the chunks are a partition and one of them, the first that is found, starts an entry, the
entry loads them as it should. -/
theorem bootOrdered_forEntry (h : chunks.Partitions g assets)
    (hroots : g.entries.lookup e = some roots) (hown : chunks.entryIndex? e = some own)
    (honly : ∀ i, chunks.StartsAt i e → i = own) :
    chunks.BootOrdered g assets e roots (chunks.forEntry g e) := by
  have hstarts : chunks.StartsAt own e := entryIndex?_spec hown
  have heager : ∀ i, (i, true) ∈ chunks.forEntry g e ↔ chunks.NeededAtStart g e roots i := by
    intro i
    rw [forEntry_eq hroots hown, mem_eager_iff, neededAtStart_iff h hstarts honly]
  have honDemand : ∀ i, (i, false) ∈ chunks.forEntry g e ↔
      ¬chunks.NeededAtStart g e roots i ∧ ∃ id, chunks.HoldsAt i id ∧ g.Reaches roots id := by
    intro i
    rw [forEntry_eq hroots hown, mem_onDemand_iff, mem_placesAfter h,
      neededAtStart_iff h hstarts honly, not_or]
  -- code of the graph is in some chunk, so that the chunks that hold it can be found in the list
  have hplaced : ∀ id, id ∉ assets → g.contains id = true → ∃ i, chunks.HoldsAt i id := by
    intro id hcode hid
    obtain ⟨i, hi, -⟩ := h.placed id hid hcode
    exact ⟨i, hi⟩
  constructor
  case once => exact nodup_forEntry h hroots hown
  case eager => exact heager
  case onDemand => exact honDemand
  case loads =>
    intro id hcode hloads
    have hid := ModuleGraph.contains_of_mem_closure (ModuleGraph.mem_staticClosure_iff.2 hloads)
    obtain ⟨i, hi⟩ := hplaced id hcode hid
    exact ⟨i, (heager i).2 (.inr ⟨id, hi, hloads⟩), hi⟩
  case reaches =>
    intro id hcode hreaches
    have hid := ModuleGraph.contains_of_mem_closure (ModuleGraph.mem_fullClosure_iff.2 hreaches)
    obtain ⟨i, hi⟩ := hplaced id hcode hid
    by_cases hstart : chunks.NeededAtStart g e roots i
    · exact ⟨i, true, (heager i).2 hstart, hi⟩
    · exact ⟨i, false, (honDemand i).2 ⟨hstart, id, hi, hreaches⟩, hi⟩
  case ordered =>
    exact ⟨_, own, _, forEntry_eq hroots hown, hstarts, List.pairwise_lt_range.filter _,
      List.pairwise_lt_range.filter _⟩

end ChunkSet

namespace Split

variable {settings : SplitSettings}

/-- The list of an entry is in order, for every graph, all copies and every setting: each chunk
once, those that hold something that the entry loads at its start with its own one last, then the
others that hold something it reaches. -/
theorem split_forEntry_bootOrdered (g : ModuleGraph) (p : Profile)
    (hproduction : p.split? = some settings) (assets : List ModuleId) (e : String)
    (roots : List ModuleId) (hroots : g.entries.lookup e = some roots) :
    (g.split p assets).BootOrdered g assets e roots ((g.split p assets).forEntry g e) := by
  simp only [ModuleGraph.split, hproduction]
  obtain ⟨own, hown⟩ := exists_entryIndex? settings assets hroots
  apply ChunkSet.bootOrdered_forEntry (shared_partitions g settings assets) hroots hown
  intro i hi
  obtain ⟨c, hc, hentry⟩ := hi
  have hfound := entryIndex?_eq hc hentry
  exact Option.some.inj (hfound.symm.trans hown)

/-- The first of two pages needs what both share before its own chunk, and may ask for another chunk
later. -/
theorem split_forEntry_bootOrdered_twoPages :
    unmerged.split? = some { minSize := 0, groups := [] } ∧
      twoPages.entries.lookup "main" = some [⟨"main.js"⟩] ∧
      (twoPages.split unmerged []).forEntry twoPages "main" = [(2, true), (0, true), (3, false)] ∧
      (twoPages.split unmerged []).BootOrdered twoPages [] "main" [⟨"main.js"⟩]
        ((twoPages.split unmerged []).forEntry twoPages "main") := by
  have hproduction : unmerged.split? = some { minSize := 0, groups := [] } := rfl
  have hroots : twoPages.entries.lookup "main" = some [⟨"main.js"⟩] := by decide
  refine ⟨hproduction, hroots, by decide +kernel, ?_⟩
  exact split_forEntry_bootOrdered twoPages unmerged hproduction [] "main" [⟨"main.js"⟩] hroots

end Split

end Bindery
