import Bindery.Proofs.Bundle.Partition

/-!
# What an entry loads

The chunks of an entry are the one that starts it and the owners of what it can reach. In
production the chunk that starts an entry holds only what no other entry reaches, before merging
and after it, so no entry ever loads the chunk of another one.

* `ChunkSet.exists_mem_forEntry_iff` : the chunks that an entry loads, at its start or on demand.
* `Split.split_forEntry_ne_other_entry` : none of them starts another entry.
-/

namespace Bindery

/-! ## The list of an entry -/

namespace ModuleGraph

variable {g : ModuleGraph} {e : String} {roots : List ModuleId}

theorem mem_of_lookup (h : g.entries.lookup e = some roots) : (e, roots) ∈ g.entries := by
  rcases List.lookup_eq_some_iff.1 h with ⟨before, after, hsplit, -⟩
  exact hsplit ▸ List.mem_append_right _ List.mem_cons_self

/-- An entry is found by its name, since no other one has it. -/
theorem lookup_of_mem (h : (e, roots) ∈ g.entries) : g.entries.lookup e = some roots := by
  rcases List.append_of_mem h with ⟨before, after, hsplit⟩
  refine List.lookup_eq_some_iff.2 ⟨before, after, hsplit, fun x hx => ?_⟩
  have hnodup := g.nodup_names
  rw [hsplit, EntryMap.names, List.map_append] at hnodup
  rw [bne_iff_ne]
  rintro rfl
  exact List.disjoint_of_nodup_append hnodup (List.mem_map_of_mem hx) List.mem_cons_self

end ModuleGraph

namespace ChunkSet

variable {chunks : ChunkSet} {g : ModuleGraph} {e : String} {roots : List ModuleId} {i : Nat}

/-- The chunk at a place starts an entry. -/
def StartsAt (chunks : ChunkSet) (i : Nat) (e : String) : Prop :=
  ∃ c, chunks[i]? = some c ∧ c.entry = some e

theorem entryIndex?_spec (h : chunks.entryIndex? e = some i) :
    ∃ c, chunks[i]? = some c ∧ c.entry = some e := by
  rcases List.findIdx?_eq_some_iff_getElem.1 h with ⟨hi, hentry, -⟩
  exact ⟨chunks[i], List.getElem?_eq_getElem hi, by simpa using hentry⟩

/-- Where a chunk starts an entry, the first one that does is found. -/
theorem exists_entryIndex?_of_mem {c : Chunk} (hc : c ∈ chunks) (he : c.entry = some e) :
    ∃ j, chunks.entryIndex? e = some j := by
  rw [← Option.isSome_iff_exists, entryIndex?, List.findIdx?_isSome, List.any_eq_true]
  exact ⟨c, hc, by simpa using he⟩

/-- An entry loads its own chunk and the owners of what it reaches. -/
theorem exists_mem_forEntry_iff (hroots : g.entries.lookup e = some roots) :
    (∃ now, (i, now) ∈ chunks.forEntry g e) ↔
      chunks.entryIndex? e = some i ∨ ∃ id ∈ g.fullClosure roots, chunks.owner? id = some i := by
  have hlt : ∀ {id}, chunks.owner? id = some i → i < chunks.length := by
    intro id h
    rcases owner?_spec h with ⟨c, hc, -⟩
    exact (List.getElem?_eq_some_iff.1 hc).1
  simp only [forEntry, hroots, List.mem_append, List.mem_map, List.mem_filter, List.mem_range,
    Prod.mk.injEq, Option.mem_toList, List.contains_iff_mem, List.mem_filterMap, Bool.and_eq_true,
    Bool.not_eq_true', bne_iff_ne]
  constructor
  · rintro ⟨now, hfirst | hdemand⟩
    · rcases hfirst with ⟨j, ⟨-, -, id, hid, howner⟩ | hown, rfl, -⟩
      · exact .inr ⟨id, ModuleGraph.staticClosure_subset_fullClosure _ hid, howner⟩
      · exact .inl hown
    · rcases hdemand with ⟨j, ⟨-, ⟨id, hid, howner⟩, -⟩, rfl, -⟩
      exact .inr ⟨id, hid, howner⟩
  · intro h
    -- what is not needed from the start is needed on demand
    by_cases hfirst : chunks.entryIndex? e = some i ∨
        ∃ id ∈ g.staticClosure roots, chunks.owner? id = some i
    · refine ⟨true, .inl ⟨i, ?_, rfl, rfl⟩⟩
      by_cases hown : chunks.entryIndex? e = some i
      · exact .inr hown
      · rcases hfirst.resolve_left hown with ⟨id, hid, howner⟩
        exact .inl ⟨hlt howner, Ne.symm hown, id, hid, howner⟩
    · rw [not_or] at hfirst
      rcases h.resolve_left hfirst.1 with ⟨id, hid, howner⟩
      refine ⟨false, .inr ⟨i, ⟨hlt howner, ⟨id, hid, howner⟩, ?_⟩, rfl, rfl⟩⟩
      rw [← Bool.not_eq_true, List.contains_iff_mem, List.mem_append]
      rintro (hmem | hmem)
      · simp only [List.mem_filter, List.contains_iff_mem, List.mem_filterMap,
          Bool.and_eq_true] at hmem
        exact hfirst.2 hmem.2.2
      · exact hfirst.1 (Option.mem_toList.1 hmem)

end ChunkSet

/-! ## Entries keep apart -/

namespace Split

variable {g : ModuleGraph} {settings : SplitSettings} {assets : List ModuleId} {id : ModuleId}
  {c : Chunk} {f : String}

/-- Only the slot of an entry becomes a chunk that starts one. -/
theorem entry_chunk_eq_some {taken : List String} {slot : Slot} {ids : List ModuleId}
    (h : ((plan g settings.groups assets).chunk g taken slot ids).entry = some f) :
    ∃ i, slot = .entry i ∧ g.entries.names.getD i "" = f := by
  cases slot with
  | entry i =>
    refine ⟨i, rfl, ?_⟩
    simpa [Plan.chunk, Plan.baseName, plan, EntryMap.names] using h
  | group i => simp [Plan.chunk] at h
  | sharedInitial names => simp [Plan.chunk] at h
  | sharedAsync names => simp [Plan.chunk] at h
  | async i => simp [Plan.chunk] at h

/-- The chunk of an entry is made from the slot of the entry. -/
theorem exists_entry_slot (hc : c ∈ shared g settings assets) (hf : c.entry = some f) :
    ∃ i ids, (Slot.entry i, ids) ∈ finalSlots g settings assets ∧ c.modules.Perm ids ∧
      g.entries.names.getD i "" = f := by
  rcases exists_slot_of_mem hc with ⟨⟨slot, ids⟩, hs, taken, rfl⟩
  rcases entry_chunk_eq_some hf with ⟨i, rfl, hname⟩
  exact ⟨i, ids, hs, List.mergeSort_perm _ _, hname⟩

/-- No two chunks start the same entry. -/
theorem place_eq_of_entry_eq {c' : Chunk} {i j : Nat} (hc : (shared g settings assets)[i]? = some c)
    (hc' : (shared g settings assets)[j]? = some c') (hf : c.entry = some f)
    (hf' : c'.entry = some f) : i = j := by
  rcases exists_slot_at hc with ⟨⟨slot, ids⟩, hslot, taken, rfl⟩
  rcases exists_slot_at hc' with ⟨⟨slot', ids'⟩, hslot', taken', rfl⟩
  rcases entry_chunk_eq_some hf with ⟨m, rfl, hm⟩
  rcases entry_chunk_eq_some hf' with ⟨n, rfl, hn⟩
  -- both are made from the slot of the entry
  have hlt := lt_of_entry_mem_finalSlots g assets settings (List.mem_of_getElem? hslot)
  have hlt' := lt_of_entry_mem_finalSlots g assets settings (List.mem_of_getElem? hslot')
  rw [← List.length_map (f := (·.1)), ← EntryMap.names] at hlt hlt'
  have hname : g.entries.names[m]? = g.entries.names[n]? := by
    rw [← hn, List.getD_eq_getElem?_getD, List.getD_eq_getElem?_getD] at hm
    rw [List.getElem?_eq_getElem hlt, List.getElem?_eq_getElem hlt'] at hm ⊢
    exact congrArg some hm
  obtain rfl : m = n := (List.getElem?_inj hlt g.nodup_names).1 hname
  -- and that slot is there only once
  have hkeys : ((finalSlots g settings assets).map (·.1)).Nodup :=
    List.pairwise_map.2 ((inOrder_finalSlots g assets settings).imp Slot.ne_of_lt)
  exact place_eq_of_key_eq hkeys hslot hslot' rfl

/-- The chunk that starts an entry is the one that is found for it. -/
theorem entryIndex?_eq {i : Nat} (hc : (shared g settings assets)[i]? = some c)
    (hf : c.entry = some f) : (shared g settings assets).entryIndex? f = some i := by
  rcases ChunkSet.exists_entryIndex?_of_mem (List.mem_of_getElem? hc) hf with ⟨j, hj⟩
  rcases ChunkSet.entryIndex?_spec hj with ⟨c', hc', hf'⟩
  rw [hj, place_eq_of_entry_eq hc' hc hf' hf]

/-- In production every entry has a chunk of its own. -/
theorem exists_entryIndex? (settings : SplitSettings) (assets : List ModuleId) {e : String}
    {roots : List ModuleId} (hroots : g.entries.lookup e = some roots) :
    ∃ i, (shared g settings assets).entryIndex? e = some i := by
  rcases List.getElem?_of_mem (ModuleGraph.mem_of_lookup hroots) with ⟨place, hplace⟩
  rcases List.getElem?_eq_some_iff.1 hplace with ⟨hlt, -⟩
  rcases entry_mem_finalSlots g assets settings hlt with ⟨ids, hslot⟩
  rcases exists_chunk_of_mem hslot with ⟨c, hc, taken, rfl⟩
  rw [← Option.isSome_iff_exists, ChunkSet.entryIndex?, List.findIdx?_isSome, List.any_eq_true]
  refine ⟨_, hc, ?_⟩
  simp [Plan.chunk, Plan.baseName, plan, hplace]

/-- Who reaches a module of the chunk that starts an entry is that entry. -/
theorem eq_of_mem_entry_chunk {e : String × List ModuleId} (hc : c ∈ shared g settings assets)
    (hf : c.entry = some f) (hid : id ∈ c.modules) (he : e ∈ g.entries)
    (hreach : id ∈ g.fullClosure e.2) : e.1 = f := by
  rcases exists_entry_slot hc hf with ⟨i, ids, hs, hperm, hname⟩
  -- slots of entries are not merged, so the plan put the module there
  have hslot := allIn_finalSlots g assets settings _ hs id (hperm.mem_iff.1 hid) rfl
  rcases List.getElem?_of_mem he with ⟨j, hj⟩
  have hplace : j ∈ placesOf id (plan g settings.groups assets).reach :=
    mem_placesOf_reach_iff.2 ⟨e, hj, hreach⟩
  rw [placesOf_of_slot?_entry hslot, List.mem_singleton] at hplace
  rw [← hname, ← hplace]
  simp [EntryMap.names, List.getD, hj]

/-- An entry that a listed chunk starts is the one that it is listed for. -/
theorem eq_of_mem_forEntry {e : String} {roots : List ModuleId} {i : Nat} {now : Bool}
    (hroots : g.entries.lookup e = some roots)
    (hlisted : (i, now) ∈ (shared g settings assets).forEntry g e)
    (hc : (shared g settings assets)[i]? = some c) (hf : c.entry = some f) : e = f := by
  rcases (ChunkSet.exists_mem_forEntry_iff hroots).1 ⟨now, hlisted⟩ with hown | ⟨id, hid, howner⟩
  · rcases ChunkSet.entryIndex?_spec hown with ⟨c', hc', he⟩
    obtain rfl : c' = c := Option.some.inj (hc'.symm.trans hc)
    exact Option.some.inj (he.symm.trans hf)
  · rcases ChunkSet.owner?_spec howner with ⟨c', hc', hmem⟩
    obtain rfl : c' = c := Option.some.inj (hc'.symm.trans hc)
    exact eq_of_mem_entry_chunk (List.mem_of_getElem? hc) hf hmem
      (ModuleGraph.mem_of_lookup hroots) hid

/-- No entry loads the chunk that starts another one, neither at its start nor on demand. -/
theorem split_forEntry_ne_other_entry (g : ModuleGraph) (p : Profile) (settings : SplitSettings)
    (hproduction : p.split? = some settings) (assets : List ModuleId) (e f : String)
    (hne : e ≠ f) :
    ∀ x ∈ (g.split p assets).forEntry g e, ∀ c, (g.split p assets)[x.1]? = some c →
      c.entry ≠ some f := by
  simp only [ModuleGraph.split, hproduction]
  rintro ⟨i, now⟩ hx c hc hf
  cases hroots : g.entries.lookup e with
  | none => simp [ChunkSet.forEntry, hroots] at hx
  | some roots => exact hne (eq_of_mem_forEntry hroots hx hc hf)

/-- The first of two pages loads what both share, and that chunk does not start the second. -/
theorem split_forEntry_twoPages :
    "main" ≠ "help" ∧ ∃ c, (2, true) ∈ (twoPages.split unmerged []).forEntry twoPages "main" ∧
      (twoPages.split unmerged [])[2]? = some c ∧ c.entry ≠ some "help" := by
  have hload : (2, true) ∈ (twoPages.split unmerged []).forEntry twoPages "main" := by
    decide +kernel
  obtain ⟨c, hc⟩ : ∃ c, (twoPages.split unmerged [])[2]? = some c :=
    Option.isSome_iff_exists.1 (by decide +kernel)
  exact ⟨by decide, c, hload, hc, split_forEntry_ne_other_entry twoPages unmerged _ rfl [] "main"
    "help" (by decide) _ hload c hc⟩

end Split

end Bindery
