import Mathlib.Data.List.Forall2
import Mathlib.Data.List.Induction
import Bindery.Proofs.Bundle.SlotMap
import Bindery.Bundle.Split

/-!
# Every code module has a slot

A code module that some entry loads at its start has the places of the entries that reach it; any
other one lies behind some boundary, since a module that no dynamic import leads to becomes a
boundary itself. So no code module is left without a slot, and before and after merging the slots
hold the code modules of the graph, each once.

* `mem_eager_iff`, `mem_placesOf_reach_iff` : what a plan knows of the entries.
* `exists_mem_boundaries` : every module that no entry loads at its start lies behind a boundary.
* `slot?_ne_none` : every code module has a slot.
* `ids_finalSlots`, `allIn_finalSlots` : the slots of a split hold the code modules of the graph,
  and a slot that never takes part in merging holds just what the plan puts there.
* `chunks_forall₂` : the chunks are those of the slots, in order.
-/

namespace Bindery

namespace Split

variable {g : ModuleGraph} {groups : List ChunkGroup} {assets : List ModuleId} {id : ModuleId}

/-! ## Places -/

theorem mem_placesOf {lists : List (List ModuleId)} {i : Nat} :
    i ∈ placesOf id lists ↔ ∃ l, lists[i]? = some l ∧ id ∈ l := by
  simp only [placesOf, List.mem_filter, List.mem_range, List.contains_iff_mem]
  constructor
  · rintro ⟨hi, hid⟩
    refine ⟨lists[i], List.getElem?_eq_getElem hi, ?_⟩
    simpa [List.getD, List.getElem?_eq_getElem hi] using hid
  · rintro ⟨l, hl, hid⟩
    rcases List.getElem?_eq_some_iff.1 hl with ⟨hi, -⟩
    exact ⟨hi, by simpa [List.getD, hl] using hid⟩

/-- Where a list has no two elements with one key, a key has one place. -/
theorem place_eq_of_key_eq {α β : Type} {key : α → β} {l : List α} {i j : Nat} {a b : α}
    (hkeys : (l.map key).Nodup) (ha : l[i]? = some a) (hb : l[j]? = some b)
    (h : key a = key b) : i = j := by
  have hlt : i < (l.map key).length := by
    rw [List.length_map]
    exact (List.getElem?_eq_some_iff.1 ha).1
  apply (List.getElem?_inj hlt hkeys).1
  rw [List.getElem?_map, List.getElem?_map, ha, hb, Option.map_some, Option.map_some, h]

/-- What has no place has no slot, what has one place has a slot for itself, and what has several
shares one. -/
theorem sharedSlot_cases (names : List String) (alone : Nat → Slot) (shared : List String → Slot)
    (places : List Nat) :
    (places = [] ∧ sharedSlot names alone shared places = none) ∨
      (∃ i, places = [i] ∧ sharedSlot names alone shared places = some (alone i)) ∨
      ∃ xs, sharedSlot names alone shared places = some (shared xs) := by
  match places with
  | [] => exact .inl ⟨rfl, rfl⟩
  | [i] => exact .inr (.inl ⟨i, rfl, rfl⟩)
  | _ :: _ :: _ => exact .inr (.inr ⟨_, rfl⟩)

/-! ## Entries -/

theorem mem_eager_iff :
    id ∈ (plan g groups assets).eager ↔
      id ∉ assets ∧ ∃ e ∈ g.entries, id ∈ g.staticClosure e.2 := by
  simp [plan, and_comm]

/-- The places of a module among the entries are those of the entries that reach it. -/
theorem mem_placesOf_reach_iff {i : Nat} :
    i ∈ placesOf id (plan g groups assets).reach ↔
      ∃ e, g.entries[i]? = some e ∧ id ∈ g.fullClosure e.2 := by
  simp only [mem_placesOf, plan, List.getElem?_map, Option.map_eq_some_iff]
  constructor
  · rintro ⟨_, ⟨e, he, rfl⟩, hid⟩
    exact ⟨e, he, hid⟩
  · rintro ⟨e, he, hid⟩
    exact ⟨_, ⟨e, he, rfl⟩, hid⟩

theorem placesOf_reach_ne_nil (h : id ∈ (plan g groups assets).eager) :
    placesOf id (plan g groups assets).reach ≠ [] := by
  rcases mem_eager_iff.1 h with ⟨-, e, he, hid⟩
  rcases List.getElem?_of_mem he with ⟨i, hi⟩
  have hfull := ModuleGraph.staticClosure_subset_fullClosure _ hid
  exact List.ne_nil_of_mem (mem_placesOf_reach_iff.2 ⟨e, hi, hfull⟩)

/-! ## Boundaries -/

variable {free : ModuleId → Bool} {taken : List String} {found : List Boundary}

/-- Looking at a module as a straggler leaves it behind a boundary. -/
theorem exists_mem_addStraggler (hfree : free id = true) (hid : g.contains id = true) :
    ∃ b ∈ addStraggler g free taken found id, id ∈ b.modules := by
  unfold addStraggler
  split
  · next h => simpa using h
  · refine ⟨_, List.mem_append_right _ (List.mem_singleton_self _), ?_⟩
    exact List.mem_filter.2 ⟨ModuleGraph.mem_closure_self hid, hfree⟩

theorem subset_addStraggler : found ⊆ addStraggler g free taken found id := by
  unfold addStraggler
  split
  · exact List.Subset.refl _
  · exact List.subset_append_left _ _

/-- Every free module of the graph lies behind some boundary. -/
theorem exists_mem_boundaries (hfree : free id = true) (hid : g.contains id = true) :
    ∃ b ∈ boundaries g free taken, id ∈ b.modules := by
  -- boundaries are only added
  have hkept : ∀ (ids : List ModuleId) (found : List Boundary),
      found ⊆ ids.foldl (addStraggler g free taken) found := by
    intro ids
    induction ids with
    | nil => exact fun found => List.Subset.refl _
    | cons x r ih => exact fun found => List.Subset.trans subset_addStraggler (ih _)
  have hall : ∀ (ids : List ModuleId) (found : List Boundary), id ∈ ids →
      ∃ b ∈ ids.foldl (addStraggler g free taken) found, id ∈ b.modules := by
    intro ids
    induction ids with
    | nil => exact fun found h => absurd h List.not_mem_nil
    | cons x r ih =>
      intro found h
      rcases List.mem_cons.1 h with rfl | h
      · have hhere : ∃ b ∈ addStraggler g free taken found id, id ∈ b.modules :=
          exists_mem_addStraggler hfree hid
        rcases hhere with ⟨b, hb, hmem⟩
        exact ⟨b, hkept r _ hb, hmem⟩
      · exact ih _ h
  exact hall _ _ (List.mem_filter.2 ⟨ModuleGraph.contains_iff.1 hid, hfree⟩)

theorem placesOf_boundaries_ne_nil (hid : g.contains id = true) (hcode : id ∉ assets)
    (heager : id ∉ (plan g groups assets).eager) :
    placesOf id ((plan g groups assets).boundaries.map (·.modules)) ≠ [] := by
  have hbehind : ∃ b ∈ (plan g groups assets).boundaries, id ∈ b.modules := by
    refine exists_mem_boundaries ?_ hid
    simpa [plan, hcode] using heager
  rcases hbehind with ⟨b, hb, hmem⟩
  rcases List.getElem?_of_mem hb with ⟨i, hi⟩
  refine List.ne_nil_of_mem (mem_placesOf.2 ⟨b.modules, ?_, hmem⟩) (a := i)
  exact List.getElem?_map.trans (congrArg _ hi)

/-! ## Slots -/

/-- A module lands in the group that claims it, with the entries that reach it, or with the
boundaries that it lies behind. -/
theorem slot?_cases (p : Plan) (id : ModuleId) :
    (∃ i, p.slot? id = some (.group i)) ∨
      (id ∈ p.eager ∧ p.slot? id =
        sharedSlot p.entries .entry .sharedInitial (placesOf id p.reach)) ∨
      (id ∉ p.eager ∧ p.slot? id =
        sharedSlot (p.boundaries.map (·.name)) .async .sharedAsync
          (placesOf id (p.boundaries.map (·.modules)))) := by
  cases hgroup : claimingGroup? p.groups id (p.eager.contains id) with
  | some i => exact .inl ⟨i, by simp only [Plan.slot?, hgroup]⟩
  | none =>
    by_cases heager : id ∈ p.eager
    · have hc : p.eager.contains id = true := List.contains_iff_mem.2 heager
      rw [hc] at hgroup
      exact .inr (.inl ⟨heager, by simp only [Plan.slot?, hc, hgroup, if_true]⟩)
    · have hc : p.eager.contains id = false := by simpa using heager
      rw [hc] at hgroup
      refine .inr (.inr ⟨heager, ?_⟩)
      simp only [Plan.slot?, hc, hgroup, Bool.false_eq_true, if_false]

/-- Every code module of the graph has a slot. -/
theorem slot?_ne_none (hid : g.contains id = true) (hcode : id ∉ assets) :
    (plan g groups assets).slot? id ≠ none := by
  rcases slot?_cases (plan g groups assets) id with ⟨i, hi⟩ | ⟨heager, hs⟩ | ⟨hfree, hs⟩
  · simp [hi]
  · rcases sharedSlot_cases (plan g groups assets).entries .entry .sharedInitial
      (placesOf id (plan g groups assets).reach) with ⟨hnil, -⟩ | ⟨i, -, hi⟩ | ⟨xs, hxs⟩
    · exact absurd hnil (placesOf_reach_ne_nil heager)
    · simp [hs, hi]
    · simp [hs, hxs]
  · rcases sharedSlot_cases ((plan g groups assets).boundaries.map (·.name)) .async .sharedAsync
      (placesOf id ((plan g groups assets).boundaries.map (·.modules)))
      with ⟨hnil, -⟩ | ⟨i, -, hi⟩ | ⟨xs, hxs⟩
    · exact absurd hnil (placesOf_boundaries_ne_nil hid hcode hfree)
    · simp [hs, hi]
    · simp [hs, hxs]

/-- A module in the slot of an entry is reached from no other entry. -/
theorem placesOf_of_slot?_entry {i : Nat}
    (h : (plan g groups assets).slot? id = some (.entry i)) :
    placesOf id (plan g groups assets).reach = [i] := by
  rcases slot?_cases (plan g groups assets) id with ⟨j, hj⟩ | ⟨-, hs⟩ | ⟨-, hs⟩
  · simp [hj] at h
  · rcases sharedSlot_cases (plan g groups assets).entries .entry .sharedInitial
      (placesOf id (plan g groups assets).reach) with ⟨-, hnone⟩ | ⟨j, hj, hsome⟩ | ⟨xs, hxs⟩
    · simp [hs, hnone] at h
    · rw [hs, hsome] at h
      simp only [Option.some.injEq, Slot.entry.injEq] at h
      rw [hj, h]
    · simp [hs, hxs] at h
  · -- what no entry loads at its start never lands in the slot of an entry
    rcases sharedSlot_cases ((plan g groups assets).boundaries.map (·.name)) .async .sharedAsync
      (placesOf id ((plan g groups assets).boundaries.map (·.modules)))
      with ⟨-, hnone⟩ | ⟨j, -, hsome⟩ | ⟨xs, hxs⟩
    · simp [hs, hnone] at h
    · simp [hs, hsome] at h
    · simp [hs, hxs] at h

namespace Plan

variable {p : Plan}

/-- What filling the slots with some modules keeps. -/
structure Filled (p : Plan) (done : List ModuleId) (slots : SlotMap) : Prop where
  inOrder : slots.InOrder
  ids : slots.ids.Perm done
  placed : slots.AllIn fun s id => p.slot? id = some s
  entries : ∀ i < p.entries.length, ∃ xs, (Slot.entry i, xs) ∈ slots

theorem filled_start (p : Plan) : p.Filled [] (p.slots []) where
  inOrder := by
    refine List.pairwise_map.2 (List.pairwise_lt_range.imp ?_)
    intro a b hab
    simpa [Slot.lt] using hab
  ids := by simp [slots, SlotMap.ids]
  placed := by
    intro s hs id hid
    rcases List.mem_map.1 hs with ⟨i, -, rfl⟩
    simp at hid
  entries := fun i hi => ⟨[], List.mem_map.2 ⟨i, List.mem_range.2 hi, rfl⟩⟩

theorem Filled.append {done : List ModuleId} {slots : SlotMap} {slot : Slot}
    (h : p.Filled done slots) (hslot : p.slot? id = some slot) :
    p.Filled (done ++ [id]) (slots.append slot [id]) where
  inOrder := SlotMap.inOrder_append h.inOrder
  ids := by
    refine (SlotMap.ids_append slot [id] slots).trans ?_
    exact (h.ids.cons id).trans (List.perm_append_singleton id done).symm
  placed := SlotMap.allIn_append h.placed (by simpa using hslot)
  entries := fun i hi => SlotMap.exists_mem_append (h.entries i hi)

theorem slots_append_singleton {slot : Slot} (hslot : p.slot? id = some slot)
    (ids : List ModuleId) : p.slots (ids ++ [id]) = (p.slots ids).append slot [id] := by
  simp only [slots, List.foldl_append, List.foldl_cons, List.foldl_nil, hslot]

/-- The slots of some modules that all have one. -/
theorem filled_slots {code : List ModuleId} (h : ∀ id ∈ code, p.slot? id ≠ none) :
    p.Filled code (p.slots code) := by
  -- modules are put into their slots one after the other
  induction code using List.reverseRecOn with
  | nil => exact filled_start p
  | append_singleton ids id ih =>
    have hfilled := ih fun x hx => h x (List.mem_append_left _ hx)
    rcases Option.ne_none_iff_exists'.1 (h id (by simp)) with ⟨slot, hslot⟩
    rw [slots_append_singleton hslot]
    exact hfilled.append hslot

/-! ## Chunks -/

/-- The chunks are those of the slots, in order, each under a name that was free. -/
theorem chunks_forall₂ (p : Plan) (g : ModuleGraph) (slots : SlotMap) :
    List.Forall₂ (fun s c => ∃ taken, c = p.chunk g taken s.1 s.2) slots (p.chunks g slots) := by
  have hfold : ∀ (slots : SlotMap) (done : ChunkSet), ∃ made,
      slots.foldl (fun done s => done ++ [p.chunk g (done.map (·.name)) s.1 s.2]) done
        = done ++ made ∧
      List.Forall₂ (fun s c => ∃ taken, c = p.chunk g taken s.1 s.2) slots made := by
    intro slots
    induction slots with
    | nil => exact fun done => ⟨[], by simp⟩
    | cons s r ih =>
      intro done
      rcases ih (done ++ [p.chunk g (done.map (·.name)) s.1 s.2]) with ⟨made, hmade, hall⟩
      refine ⟨p.chunk g (done.map (·.name)) s.1 s.2 :: made, ?_, .cons ⟨_, rfl⟩ hall⟩
      rw [List.foldl_cons, hmade, List.append_assoc, List.singleton_append]
  rcases hfold slots [] with ⟨made, hmade, hall⟩
  rw [chunks, hmade, List.nil_append]
  exact hall

end Plan

/-! ## The slots of a split -/

/-- The code modules of a graph. -/
def code (g : ModuleGraph) (assets : List ModuleId) : List ModuleId :=
  g.ids.filter fun id => !assets.contains id

/-- The slots of a split after merging. -/
def finalSlots (g : ModuleGraph) (settings : SplitSettings) (assets : List ModuleId) : SlotMap :=
  SlotMap.mergeSmall g settings.minSize ((plan g settings.groups assets).slots (code g assets))

variable (g) (settings : SplitSettings) (assets)

theorem shared_eq :
    shared g settings assets =
      (plan g settings.groups assets).chunks g (finalSlots g settings assets) := rfl

theorem filled_code :
    (plan g settings.groups assets).Filled (code g assets)
      ((plan g settings.groups assets).slots (code g assets)) := by
  refine Plan.filled_slots ?_
  intro id hid
  rcases List.mem_filter.1 hid with ⟨hin, hcode⟩
  exact slot?_ne_none (ModuleGraph.contains_iff.2 hin) (by simpa using hcode)

/-- The slots of a split hold the code modules of the graph. -/
theorem ids_finalSlots : (finalSlots g settings assets).ids.Perm (code g assets) := by
  have hfilled := filled_code g assets settings
  suffices hboth : (finalSlots g settings assets).InOrder ∧
      (finalSlots g settings assets).ids.Perm (code g assets) from hboth.2
  refine SlotMap.mergeSmall_induction
    (motive := fun slots => slots.InOrder ∧ slots.ids.Perm (code g assets)) ?_ ?_
  · exact ⟨hfilled.inOrder, hfilled.ids⟩
  · rintro slots source target ⟨hord, hids⟩ hnext
    rcases SlotMap.nextMerge?_spec hnext with ⟨hsource, -⟩
    exact ⟨SlotMap.inOrder_merge hord, (SlotMap.ids_merge hord hsource).trans hids⟩

/-- A slot that never takes part in merging holds what the plan puts there. -/
theorem allIn_finalSlots :
    (finalSlots g settings assets).AllIn fun s id =>
      s.isMergeable = false → (plan g settings.groups assets).slot? id = some s := by
  refine SlotMap.mergeSmall_induction ?_ ?_
  · exact fun s hs id hid _ => (filled_code g assets settings).placed s hs id hid
  · intro slots source target h hnext
    rcases SlotMap.nextMerge?_spec hnext with ⟨-, -, -, hjoin, -⟩
    -- what is moved lands in a slot that does take part
    refine SlotMap.allIn_merge h ?_
    intro id _ htarget
    simp [Slot.isMergeable_of_canJoin hjoin] at htarget

/-- Every entry keeps its slot. -/
theorem entry_mem_finalSlots {i : Nat} (hi : i < g.entries.length) :
    ∃ xs, (Slot.entry i, xs) ∈ finalSlots g settings assets := by
  refine SlotMap.mergeSmall_induction
    (motive := fun slots => ∃ xs, (Slot.entry i, xs) ∈ slots) ?_ ?_
  · exact (filled_code g assets settings).entries i (by simpa [plan] using hi)
  · intro slots source target h hnext
    rcases SlotMap.nextMerge?_spec hnext with ⟨-, hmergeable, -⟩
    refine SlotMap.exists_mem_merge h ?_
    rintro heq
    simp [← heq, Slot.isMergeable, Slot.onDemand?] at hmergeable

/-- No slot is listed twice. -/
theorem inOrder_finalSlots : (finalSlots g settings assets).InOrder := by
  refine SlotMap.mergeSmall_induction ?_ ?_
  · exact (filled_code g assets settings).inOrder
  · exact fun slots source target h _ => SlotMap.inOrder_merge h

/-- Before merging there are slots for the entries of the graph only. -/
theorem lt_of_entry_mem_slots {ids : List ModuleId}
    (h : ∀ id ∈ ids, (plan g settings.groups assets).slot? id ≠ none) :
    ∀ s ∈ (plan g settings.groups assets).slots ids, ∀ i, s.1 = .entry i →
      i < g.entries.length := by
  induction ids using List.reverseRecOn with
  | nil =>
    rintro s hs i hi
    rcases List.mem_map.1 hs with ⟨j, hj, rfl⟩
    obtain rfl : j = i := Slot.entry.inj hi
    simpa [plan] using List.mem_range.1 hj
  | append_singleton ids id ih =>
    rcases Option.ne_none_iff_exists'.1 (h id (by simp)) with ⟨slot, hslot⟩
    rw [Plan.slots_append_singleton hslot]
    rintro s hs i hi
    rcases SlotMap.mem_append hs with hs | ⟨ys, -, rfl⟩
    · exact ih (fun x hx => h x (List.mem_append_left _ hx)) s hs i hi
    · -- a module is put there only if the entry reaches it
      rw [show slot = .entry i from hi] at hslot
      have hplace : i ∈ placesOf id (plan g settings.groups assets).reach := by
        rw [placesOf_of_slot?_entry hslot]
        exact List.mem_singleton_self i
      rcases mem_placesOf_reach_iff.1 hplace with ⟨e, he, -⟩
      exact (List.getElem?_eq_some_iff.1 he).1

/-- There are slots for the entries of the graph only. -/
theorem lt_of_entry_mem_finalSlots {i : Nat} {ids : List ModuleId}
    (h : (Slot.entry i, ids) ∈ finalSlots g settings assets) : i < g.entries.length := by
  suffices hall : ∀ s ∈ finalSlots g settings assets, ∀ i, s.1 = .entry i →
      i < g.entries.length from hall _ h i rfl
  refine SlotMap.mergeSmall_induction
    (motive := fun slots => ∀ s ∈ slots, ∀ i, s.1 = .entry i → i < g.entries.length) ?_ ?_
  · refine lt_of_entry_mem_slots g assets settings fun id hid => ?_
    rcases List.mem_filter.1 hid with ⟨hin, hcode⟩
    exact slot?_ne_none (ModuleGraph.contains_iff.2 hin) (by simpa using hcode)
  · intro slots source target h hnext s hs i hi
    rcases SlotMap.nextMerge?_spec hnext with ⟨-, -, -, -, ys, htarget⟩
    rcases SlotMap.mem_append hs with hs | ⟨zs, -, rfl⟩
    · exact h s (SlotMap.mem_remove.1 hs).1 i hi
    · exact h _ htarget i hi

end Split

end Bindery
