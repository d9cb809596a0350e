import Bindery.Proofs.Bundle.Boundary
import Bindery.Proofs.Bundle.EntryLoading
import Bindery.Proofs.Bundle.Merge

/-!
# Where a module lands

In production a code module goes to the first named group that admits it. Otherwise, if some entry
loads it at its start, it goes to the chunk of that entry, unless several entries reach it: then it
is with all modules that the same entries reach. What no entry loads at its start is with the
modules that lie behind the same boundaries. Merging moves only what no entry and no group has to
itself.

* `ClaimedBy`, `claimedBy_or_unclaimed` : the group that takes a module.
* `slot?_eq_group_iff`, `slot?_eq_entry_iff`, `slot?_eq_iff` : slots in terms of what imports lead
  to.
* `mem_finalSlots_iff` : merging leaves the slots of entries and groups as they are.
* `Placed` : where the modules of a graph are to be found.
* `split_placed` : they are there, for every graph, all copies and every setting.
-/

namespace Bindery

/-- A group takes a module: its pattern matches, and its scope has room for the module. `initial`
says that some entry loads the module at its start. -/
def ChunkGroup.Admits (group : ChunkGroup) (initial : Prop) (id : ModuleId) : Prop :=
  group.test.isMatch id.text = true ∧
    match group.chunks with
    | .all => True
    | .initial => initial
    | .async => ¬initial

namespace Split

variable {g : ModuleGraph} {groups : List ChunkGroup} {settings : SplitSettings}
  {assets : List ModuleId} {id x y : ModuleId} {i k : Nat} {c : Chunk} {name : String}

/-! ## Named groups -/

/-- The group at a place is the first one that admits a module. -/
def ClaimedBy (g : ModuleGraph) (groups : List ChunkGroup) (k : Nat) (id : ModuleId) : Prop :=
  ∃ group, groups[k]? = some group ∧ group.Admits (g.LoadedAtStart id) id ∧
    ∀ j < k, ∀ other, groups[j]? = some other → ¬other.Admits (g.LoadedAtStart id) id

/-- No group admits a module. -/
def Unclaimed (g : ModuleGraph) (groups : List ChunkGroup) (id : ModuleId) : Prop :=
  ∀ group ∈ groups, ¬group.Admits (g.LoadedAtStart id) id

/-- Where it is known whether some entry loads a module at its start, the test of a group can be
evaluated. -/
theorem admits_iff (group : ChunkGroup) {isEager : Bool} {initial : Prop}
    (h : isEager = true ↔ initial) :
    ((match group.chunks with
      | .all => true
      | .initial => isEager
      | .async => !isEager) && group.test.isMatch id.text) = true ↔ group.Admits initial id := by
  rw [Bool.and_eq_true, and_comm, ChunkGroup.Admits, ← h]
  apply and_congr_right
  intro _
  cases group.chunks <;> simp

theorem claimingGroup?_eq_some_iff {isEager : Bool} (h : isEager = true ↔ g.LoadedAtStart id) :
    claimingGroup? groups id isEager = some k ↔ ClaimedBy g groups k id := by
  unfold claimingGroup? ClaimedBy
  rw [List.findIdx?_eq_some_iff_getElem]
  constructor
  · rintro ⟨hlt, hadmits, hbefore⟩
    refine ⟨groups[k], List.getElem?_eq_getElem hlt, (admits_iff _ h).1 hadmits, ?_⟩
    intro j hj other hother hadmitted
    obtain ⟨hjlt, rfl⟩ := List.getElem?_eq_some_iff.1 hother
    exact hbefore j hj ((admits_iff _ h).2 hadmitted)
  · rintro ⟨group, hgroup, hadmits, hbefore⟩
    obtain ⟨hlt, rfl⟩ := List.getElem?_eq_some_iff.1 hgroup
    refine ⟨hlt, (admits_iff _ h).2 hadmits, ?_⟩
    intro j hj hadmitted
    exact hbefore j hj _ (List.getElem?_eq_getElem (hj.trans hlt)) ((admits_iff _ h).1 hadmitted)

theorem claimingGroup?_eq_none_iff {isEager : Bool} (h : isEager = true ↔ g.LoadedAtStart id) :
    claimingGroup? groups id isEager = none ↔ Unclaimed g groups id := by
  unfold claimingGroup? Unclaimed
  rw [List.findIdx?_eq_none_iff]
  apply forall_congr'
  intro group
  apply forall_congr'
  intro _
  rw [← Bool.not_eq_true]
  exact not_congr (admits_iff group h)

theorem claimedBy_or_unclaimed (g : ModuleGraph) (groups : List ChunkGroup) (id : ModuleId) :
    (∃ k, ClaimedBy g groups k id) ∨ Unclaimed g groups id := by
  classical
  have h : decide (g.LoadedAtStart id) = true ↔ g.LoadedAtStart id := decide_eq_true_iff
  cases hclaim : claimingGroup? groups id (decide (g.LoadedAtStart id)) with
  | some k => exact .inl ⟨k, (claimingGroup?_eq_some_iff h).1 hclaim⟩
  | none => exact .inr ((claimingGroup?_eq_none_iff h).1 hclaim)

/-! ## Slots -/

theorem contains_eager_iff (groups : List ChunkGroup) (hid : id ∈ code g assets) :
    (plan g groups assets).eager.contains id = true ↔ g.LoadedAtStart id :=
  List.contains_iff_mem.trans (mem_eager_iff_loadedAtStart hid)

theorem slot?_of_claimedBy (hid : id ∈ code g assets) (h : ClaimedBy g groups k id) :
    (plan g groups assets).slot? id = some (.group k) := by
  have hgroup := (claimingGroup?_eq_some_iff (contains_eager_iff groups hid)).2 h
  simp only [Plan.slot?, show (plan g groups assets).groups = groups from rfl, hgroup]

/-- What no group claims and some entry loads at its start is placed by the entries that reach it.
-/
theorem slot?_of_loadedAtStart (hid : id ∈ code g assets) (h : Unclaimed g groups id)
    (hstart : g.LoadedAtStart id) : (plan g groups assets).slot? id =
      sharedSlot (g.entries.map (·.1)) .entry .sharedInitial
        (placesOf id (plan g groups assets).reach) := by
  have heager := (contains_eager_iff groups hid).2 hstart
  have hgroup := (claimingGroup?_eq_none_iff (contains_eager_iff groups hid)).2 h
  rw [heager] at hgroup
  simp only [Plan.slot?, show (plan g groups assets).groups = groups from rfl, heager, hgroup,
    if_true]
  rfl

/-- What no group claims and no entry loads at its start is placed by the boundaries before it. -/
theorem slot?_of_onDemand (hid : OnDemand g assets id) (h : Unclaimed g groups id) :
    (plan g groups assets).slot? id =
      sharedSlot ((plan g groups assets).boundaries.map (·.name)) .async .sharedAsync
        (placesOf id ((plan g groups assets).boundaries.map (·.modules))) := by
  have hfree : (plan g groups assets).eager.contains id = false := by
    rw [← Bool.not_eq_true, contains_eager_iff groups hid.1]
    exact hid.2
  have hgroup := (claimingGroup?_eq_none_iff (contains_eager_iff groups hid.1)).2 h
  rw [hfree] at hgroup
  simp only [Plan.slot?, show (plan g groups assets).groups = groups from rfl, hfree, hgroup,
    Bool.false_eq_true, if_false]

/-- A slot for what has places is for one of them or shared. -/
theorem cases_of_sharedSlot {names : List String} {alone : Nat → Slot}
    {shared : List String → Slot} {places : List Nat} {s : Slot}
    (h : sharedSlot names alone shared places = some s) :
    (∃ i, s = alone i ∧ places = [i]) ∨ ∃ xs, s = shared xs := by
  rcases sharedSlot_cases names alone shared places with ⟨-, hnone⟩ | ⟨i, hi, hsome⟩ | ⟨xs, hxs⟩
  · rw [hnone] at h
    cases h
  · rw [hsome] at h
    exact .inl ⟨i, (Option.some.inj h).symm, hi⟩
  · rw [hxs] at h
    exact .inr ⟨xs, (Option.some.inj h).symm⟩

/-- What has places lands in no slot that is neither for one of them nor shared. -/
theorem sharedSlot_ne {names : List String} {alone : Nat → Slot} {shared : List String → Slot}
    {places : List Nat} {s : Slot} (halone : ∀ i, s ≠ alone i) (hshared : ∀ xs, s ≠ shared xs) :
    sharedSlot names alone shared places ≠ some s := by
  intro h
  rcases cases_of_sharedSlot h with ⟨i, hi, -⟩ | ⟨xs, hxs⟩
  · exact halone i hi
  · exact hshared xs hxs

/-- Only what a group claims lands in its slot. -/
theorem slot?_eq_group_iff (hid : id ∈ code g assets) :
    (plan g groups assets).slot? id = some (.group k) ↔ ClaimedBy g groups k id := by
  constructor
  · intro h
    rcases claimedBy_or_unclaimed g groups id with ⟨j, hj⟩ | hfree
    · rw [slot?_of_claimedBy hid hj] at h
      obtain rfl := Slot.group.inj (Option.some.inj h)
      exact hj
    · -- without a group it would land in a slot of another class
      by_cases hstart : g.LoadedAtStart id
      · rw [slot?_of_loadedAtStart hid hfree hstart] at h
        exact absurd h (sharedSlot_ne (by simp) (by simp))
      · rw [slot?_of_onDemand ⟨hid, hstart⟩ hfree] at h
        exact absurd h (sharedSlot_ne (by simp) (by simp))
  · exact slot?_of_claimedBy hid

/-! ## The slot of an entry -/

theorem mem_placesOf_reach : i ∈ placesOf id (plan g groups assets).reach ↔
    ∃ e, g.entries[i]? = some e ∧ g.Reaches e.2 id := by
  rw [mem_placesOf_reach_iff]
  simp only [ModuleGraph.mem_fullClosure_iff]

theorem reaches_of_loads {roots : List ModuleId} (h : g.Loads roots id) : g.Reaches roots id :=
  ModuleGraph.mem_fullClosure_iff.1
    (ModuleGraph.staticClosure_subset_fullClosure _ (ModuleGraph.mem_staticClosure_iff.2 h))

/-- Entries of the same name are at the same place. -/
theorem place_eq_of_name_eq {e f : String × List ModuleId} {j : Nat} (he : g.entries[i]? = some e)
    (hf : g.entries[j]? = some f) (h : e.1 = f.1) : i = j :=
  place_eq_of_key_eq g.nodup_names he hf h

theorem placesOf_pairwise (id : ModuleId) (lists : List (List ModuleId)) :
    (placesOf id lists).Pairwise (· < ·) :=
  List.pairwise_lt_range.filter _

/-- What is loaded at some start and reached by one entry only is what this entry loads at its start
and no other one reaches. -/
theorem placesOf_reach_eq_singleton_iff (groups : List ChunkGroup) (assets : List ModuleId)
    {e : String × List ModuleId}
    (he : g.entries[i]? = some e) :
    (g.LoadedAtStart id ∧ placesOf id (plan g groups assets).reach = [i]) ↔
      g.Loads e.2 id ∧ ∀ f ∈ g.entries, f.1 ≠ e.1 → ¬g.Reaches f.2 id := by
  constructor
  · rintro ⟨⟨f, hf, hloads⟩, hplaces⟩
    have honly : ∀ f ∈ g.entries, g.Reaches f.2 id → f = e := by
      intro f hf hreaches
      obtain ⟨j, hj⟩ := List.getElem?_of_mem hf
      have hplace : j ∈ placesOf id (plan g groups assets).reach :=
        mem_placesOf_reach.2 ⟨f, hj, hreaches⟩
      rw [hplaces, List.mem_singleton] at hplace
      rw [hplace, he] at hj
      exact (Option.some.inj hj).symm
    obtain rfl := honly f hf (reaches_of_loads hloads)
    refine ⟨hloads, ?_⟩
    intro f' hf' hne hreaches
    exact hne (congrArg (·.1) (honly f' hf' hreaches))
  · rintro ⟨hloads, hothers⟩
    refine ⟨⟨e, List.mem_of_getElem? he, hloads⟩, ?_⟩
    apply (placesOf_pairwise id _).eq_of_mem_iff (List.pairwise_singleton _ i)
    intro j
    rw [mem_placesOf_reach, List.mem_singleton]
    constructor
    · rintro ⟨f, hf, hreaches⟩
      by_cases hname : f.1 = e.1
      · exact place_eq_of_name_eq hf he hname
      · exact absurd hreaches (hothers f (List.mem_of_getElem? hf) hname)
    · rintro rfl
      exact ⟨e, he, reaches_of_loads hloads⟩

/-- In the slot of an entry lands what it loads at its start, no other entry reaches and no group
claims. -/
theorem slot?_eq_entry_iff (hid : id ∈ code g assets) {e : String × List ModuleId}
    (he : g.entries[i]? = some e) :
    (plan g groups assets).slot? id = some (.entry i) ↔
      g.Loads e.2 id ∧ (∀ f ∈ g.entries, f.1 ≠ e.1 → ¬g.Reaches f.2 id) ∧
        Unclaimed g groups id := by
  rw [← and_assoc, ← placesOf_reach_eq_singleton_iff groups assets he]
  constructor
  · intro h
    have hfree : Unclaimed g groups id := by
      rcases claimedBy_or_unclaimed g groups id with ⟨k, hk⟩ | hfree
      · rw [slot?_of_claimedBy hid hk] at h
        cases h
      · exact hfree
    have hstart : g.LoadedAtStart id := by
      by_contra hstart
      rw [slot?_of_onDemand ⟨hid, hstart⟩ hfree] at h
      exact absurd h (sharedSlot_ne (by simp) (by simp))
    exact ⟨⟨hstart, placesOf_of_slot?_entry h⟩, hfree⟩
  · rintro ⟨⟨hstart, hplaces⟩, hfree⟩
    rw [slot?_of_loadedAtStart hid hfree hstart, hplaces]
    rfl

/-! ## Slots that are shared -/

/-- Where names are different, slots tell the places of a module. -/
theorem eq_of_sharedSlot_eq {names : List String} {alone : Nat → Slot}
    {shared : List String → Slot} (hnames : names.Nodup) (halone : Function.Injective alone)
    (hshared : Function.Injective shared) (happart : ∀ i xs, alone i ≠ shared xs)
    {p q : List Nat} (hp : ∀ i ∈ p, i < names.length) (hq : ∀ i ∈ q, i < names.length)
    (h : sharedSlot names alone shared p = sharedSlot names alone shared q) : p = q := by
  -- looking names up gives the places back
  have hback : ∀ l : List Nat, (∀ i ∈ l, i < names.length) →
      (l.map fun i => names.getD i "").map names.idxOf = l := by
    intro l hl
    rw [List.map_map]
    refine (List.map_congr_left ?_).trans (List.map_id l)
    intro i hi
    have hlt := hl i hi
    simp [List.getD, hlt, hnames.idxOf_getElem]
  match p, q with
  | [], [] => rfl
  | [], [j] => cases h
  | [], _ :: _ :: _ => cases h
  | [i], [] => cases h
  | [i], [j] => rw [halone (Option.some.inj h)]
  | [i], _ :: _ :: _ => exact absurd (Option.some.inj h) (happart _ _)
  | _ :: _ :: _, [] => cases h
  | _ :: _ :: _, [j] => exact absurd (Option.some.inj h).symm (happart _ _)
  | i :: i' :: r, j :: j' :: s =>
    have hsame := hshared (Option.some.inj h)
    rw [← hback _ hp, ← hback _ hq]
    exact congrArg (List.map names.idxOf) hsame

/-- Modules have the same places when the same lists hold them. -/
theorem placesOf_eq_iff {lists : List (List ModuleId)} :
    placesOf x lists = placesOf y lists ↔ ∀ l ∈ lists, (x ∈ l ↔ y ∈ l) := by
  constructor
  · intro h l hl
    obtain ⟨i, hi⟩ := List.getElem?_of_mem hl
    have hholds : ∀ z, i ∈ placesOf z lists ↔ z ∈ l := by
      intro z
      rw [mem_placesOf]
      constructor
      · rintro ⟨l', hl', hz⟩
        obtain rfl := Option.some.inj (hi.symm.trans hl')
        exact hz
      · exact fun hz => ⟨l, hi, hz⟩
    rw [← hholds, ← hholds, h]
  · intro h
    apply (placesOf_pairwise x lists).eq_of_mem_iff (placesOf_pairwise y lists)
    intro i
    rw [mem_placesOf, mem_placesOf]
    apply exists_congr
    intro l
    apply and_congr_right
    intro hl
    exact h l (List.mem_of_getElem? hl)

theorem lt_of_mem_placesOf {lists : List (List ModuleId)} (h : i ∈ placesOf id lists) :
    i < lists.length := by
  obtain ⟨l, hl, -⟩ := mem_placesOf.1 h
  exact (List.getElem?_eq_some_iff.1 hl).1

/-- Two modules that some entries load at their starts have the same slot when the same entries
reach them. -/
theorem slot?_eq_iff_of_loadedAtStart (hx : x ∈ code g assets) (hy : y ∈ code g assets)
    (hfreex : Unclaimed g groups x) (hfreey : Unclaimed g groups y) (hstartx : g.LoadedAtStart x)
    (hstarty : g.LoadedAtStart y) :
    (plan g groups assets).slot? x = (plan g groups assets).slot? y ↔
      ∀ e ∈ g.entries, (g.Reaches e.2 x ↔ g.Reaches e.2 y) := by
  have hplaces : placesOf x (plan g groups assets).reach = placesOf y (plan g groups assets).reach ↔
      ∀ e ∈ g.entries, (g.Reaches e.2 x ↔ g.Reaches e.2 y) := by
    rw [placesOf_eq_iff]
    simp only [plan, List.forall_mem_map, ModuleGraph.mem_fullClosure_iff]
  have hbound : ∀ z, ∀ i ∈ placesOf z (plan g groups assets).reach,
      i < (g.entries.map (·.1)).length := by
    intro z i hi
    simpa [plan] using lt_of_mem_placesOf hi
  rw [← hplaces, slot?_of_loadedAtStart hx hfreex hstartx, slot?_of_loadedAtStart hy hfreey hstarty]
  constructor
  · intro h
    refine eq_of_sharedSlot_eq g.nodup_names ?_ ?_ ?_ (hbound x) (hbound y) h
    · exact fun i j hij => Slot.entry.inj hij
    · exact fun xs ys hxy => Slot.sharedInitial.inj hxy
    · intro i xs hne
      cases hne
  · intro h
    rw [h]

theorem mem_behind_iff (hx : OnDemand g assets x) {b : ModuleId} :
    x ∈ behind g (isFree g assets) b ↔ g.Loads [b] x := by
  have hfree : isFree g assets x = true := (List.mem_filter.1 (mem_filter_isFree.2 hx)).2
  rw [behind, List.mem_filter, ModuleGraph.mem_staticClosure_iff]
  exact and_iff_left hfree

/-- Two modules that no entry loads at its start have the same slot when they are loaded with the
same boundaries. -/
theorem slot?_eq_iff_of_onDemand (hx : OnDemand g assets x) (hy : OnDemand g assets y)
    (hfreex : Unclaimed g groups x) (hfreey : Unclaimed g groups y) {targets rest : List ModuleId}
    (hboundaries : IsBoundaries g assets targets rest) :
    (plan g groups assets).slot? x = (plan g groups assets).slot? y ↔
      ∀ b ∈ targets ++ rest, (g.Loads [b] x ↔ g.Loads [b] y) := by
  obtain ⟨targets', rest', hfound, hmodules⟩ := exists_isBoundaries g groups assets
  obtain ⟨rfl, rfl⟩ := eq_of_isBoundaries hboundaries hfound
  have hplaces : placesOf x ((plan g groups assets).boundaries.map (·.modules)) =
        placesOf y ((plan g groups assets).boundaries.map (·.modules)) ↔
      ∀ b ∈ targets ++ rest, (g.Loads [b] x ↔ g.Loads [b] y) := by
    rw [placesOf_eq_iff, hmodules]
    simp only [List.forall_mem_map, mem_behind_iff hx, mem_behind_iff hy]
  have hbound : ∀ z, ∀ i ∈ placesOf z ((plan g groups assets).boundaries.map (·.modules)),
      i < ((plan g groups assets).boundaries.map (·.name)).length := by
    intro z i hi
    simpa using lt_of_mem_placesOf hi
  have hnames : ((plan g groups assets).boundaries.map (·.name)).Nodup := by
    rw [boundaries_plan]
    exact nodup_names_boundaries _ _ _
  rw [← hplaces, slot?_of_onDemand hx hfreex, slot?_of_onDemand hy hfreey]
  constructor
  · intro h
    refine eq_of_sharedSlot_eq hnames ?_ ?_ ?_ (hbound x) (hbound y) h
    · exact fun i j hij => Slot.async.inj hij
    · exact fun xs ys hxy => Slot.sharedAsync.inj hxy
    · intro i xs hne
      cases hne
  · intro h
    rw [h]

/-- What some entry loads at its start never has the slot of what none does. -/
theorem slot?_ne_of_onDemand (hx : x ∈ code g assets) (hfreex : Unclaimed g groups x)
    (hstart : g.LoadedAtStart x) (hy : OnDemand g assets y) (hfreey : Unclaimed g groups y) :
    (plan g groups assets).slot? x ≠ (plan g groups assets).slot? y := by
  intro h
  obtain ⟨hin, hcode⟩ := mem_code.1 hx
  have hplaced : (plan g groups assets).slot? x ≠ none := slot?_ne_none hin hcode
  obtain ⟨s, hs⟩ := Option.ne_none_iff_exists'.1 hplaced
  have hs' : (plan g groups assets).slot? y = some s := h.symm.trans hs
  rw [slot?_of_loadedAtStart hx hfreex hstart] at hs
  rw [slot?_of_onDemand hy hfreey] at hs'
  rcases cases_of_sharedSlot hs with ⟨i, rfl, -⟩ | ⟨xs, rfl⟩
  · exact absurd hs' (sharedSlot_ne (by simp) (by simp))
  · exact absurd hs' (sharedSlot_ne (by simp) (by simp))

/-- When two modules that no group claims have the same slot. -/
theorem slot?_eq_iff (hx : x ∈ code g assets) (hy : y ∈ code g assets)
    (hfreex : Unclaimed g groups x) (hfreey : Unclaimed g groups y) {targets rest : List ModuleId}
    (hboundaries : IsBoundaries g assets targets rest) :
    (plan g groups assets).slot? x = (plan g groups assets).slot? y ↔
      (g.LoadedAtStart x ∧ g.LoadedAtStart y ∧
          ∀ e ∈ g.entries, (g.Reaches e.2 x ↔ g.Reaches e.2 y)) ∨
        (¬g.LoadedAtStart x ∧ ¬g.LoadedAtStart y ∧
          ∀ b ∈ targets ++ rest, (g.Loads [b] x ↔ g.Loads [b] y)) := by
  by_cases hstartx : g.LoadedAtStart x
  · by_cases hstarty : g.LoadedAtStart y
    · rw [slot?_eq_iff_of_loadedAtStart hx hy hfreex hfreey hstartx hstarty]
      simp only [hstartx, hstarty, true_and, not_true_eq_false, false_and, or_false]
    · have hne := slot?_ne_of_onDemand hx hfreex hstartx ⟨hy, hstarty⟩ hfreey
      simp only [hne, hstartx, hstarty, false_and, and_false, not_true_eq_false, or_self]
  · by_cases hstarty : g.LoadedAtStart y
    · have hne := (slot?_ne_of_onDemand hy hfreey hstarty ⟨hx, hstartx⟩ hfreex).symm
      simp only [hne, hstartx, hstarty, false_and, and_false, not_true_eq_false, or_self]
    · rw [slot?_eq_iff_of_onDemand ⟨hx, hstartx⟩ ⟨hy, hstarty⟩ hfreex hfreey hboundaries]
      simp only [hstartx, hstarty, false_and, false_or, not_false_eq_true, true_and]

/-! ## Members of slots -/

section Filled

variable {p : Plan} {ids : List ModuleId} {slots : SlotMap}

theorem exists_slot_of_filled (h : p.Filled ids slots) (hid : id ∈ ids) :
    ∃ s ∈ slots, id ∈ s.2 :=
  List.mem_flatMap.1 (h.ids.mem_iff.2 hid)

/-- A slot that was filled with some modules holds those that the plan puts there. -/
theorem mem_of_filled_iff (h : p.Filled ids slots) {s : Slot × List ModuleId} (hs : s ∈ slots) :
    id ∈ s.2 ↔ id ∈ ids ∧ p.slot? id = some s.1 := by
  constructor
  · intro hid
    exact ⟨h.ids.mem_iff.1 (List.mem_flatMap.2 ⟨s, hs, hid⟩), h.placed s hs id hid⟩
  · rintro ⟨hid, hslot⟩
    obtain ⟨t, ht, hidt⟩ := exists_slot_of_filled h hid
    have hslot' : some t.1 = some s.1 := (h.placed t ht id hidt).symm.trans hslot
    rw [← SlotMap.eq_of_slot_eq h.inOrder ht hs (Option.some.inj hslot')]
    exact hidt

/-- Only entries have slots without modules. -/
theorem ne_nil_of_mem_slots (h : ∀ id ∈ ids, p.slot? id ≠ none) :
    ∀ s ∈ p.slots ids, (∃ i, s.1 = .entry i) ∨ s.2 ≠ [] := by
  induction ids using List.reverseRecOn with
  | nil =>
    intro s hs
    obtain ⟨i, -, rfl⟩ := List.mem_map.1 hs
    exact .inl ⟨i, rfl⟩
  | append_singleton ids id ih =>
    obtain ⟨slot, hslot⟩ := Option.ne_none_iff_exists'.1 (h id (by simp))
    rw [Plan.slots_append_singleton hslot]
    intro s hs
    rcases SlotMap.mem_append hs with hs | ⟨ys, -, rfl⟩
    · exact ih (fun x hx => h x (List.mem_append_left _ hx)) s hs
    · exact .inr (by simp)

end Filled

theorem isPartition_slots (g : ModuleGraph) (settings : SplitSettings) (assets : List ModuleId) :
    ((plan g settings.groups assets).slots (code g assets)).IsPartition := by
  have hfilled := filled_code g assets settings
  exact ⟨hfilled.inOrder, hfilled.ids.nodup_iff.2 (g.nodup_ids.filter _)⟩

/-- Merging leaves the slots of entries and of named groups as they are. -/
theorem mem_finalSlots_iff {s : Slot × List ModuleId} (hs : s.1.isMergeable = false) :
    s ∈ finalSlots g settings assets ↔
      s ∈ (plan g settings.groups assets).slots (code g assets) :=
  (SlotMap.coarser_mergeSmall (isPartition_slots g settings assets)).2.named s hs

/-- A chunk that is made from the slot of an entry or of a named group holds what the plan puts
there. -/
theorem mem_modules_iff {s : Slot × List ModuleId} (hs : s ∈ finalSlots g settings assets)
    (hfixed : s.1.isMergeable = false) {ids : List ModuleId} (hperm : ids.Perm s.2) :
    id ∈ ids ↔ id ∈ code g assets ∧ (plan g settings.groups assets).slot? id = some s.1 := by
  rw [hperm.mem_iff]
  exact mem_of_filled_iff (filled_code g assets settings) ((mem_finalSlots_iff hfixed).1 hs)

/-! ## Chunks -/

/-- The chunk of an entry holds what the entry loads at its start, no other entry reaches and no
group claims. -/
theorem mem_entry_chunk_iff (hc : c ∈ shared g settings assets) {e : String × List ModuleId}
    (he : e ∈ g.entries) (hentry : c.entry = some e.1) :
    id ∈ c.modules ↔ id ∈ code g assets ∧ g.Loads e.2 id ∧
      (∀ f ∈ g.entries, f.1 ≠ e.1 → ¬g.Reaches f.2 id) ∧ Unclaimed g settings.groups id := by
  obtain ⟨i, ids, hslot, hperm, hname⟩ := exists_entry_slot hc hentry
  have hlt := lt_of_entry_mem_finalSlots g assets settings hslot
  -- the slot is that of the entry, since no two entries share a name
  have hat : g.entries[i]? = some e := by
    obtain ⟨j, hj⟩ := List.getElem?_of_mem he
    have hname' : g.entries[i].1 = e.1 := by
      simpa [EntryMap.names, List.getD, hlt] using hname
    rw [place_eq_of_name_eq (List.getElem?_eq_getElem hlt) hj hname']
    exact hj
  rw [mem_modules_iff hslot rfl hperm]
  apply and_congr_right
  intro hid
  exact slot?_eq_entry_iff hid hat

/-- Every entry has one chunk that starts it. -/
theorem exists_unique_startsAt {e : String × List ModuleId} (he : e ∈ g.entries) :
    ∃! i, (shared g settings assets).StartsAt i e.1 := by
  obtain ⟨i, hi⟩ := exists_entryIndex? settings assets (ModuleGraph.lookup_of_mem he)
  refine ⟨i, ChunkSet.entryIndex?_spec hi, ?_⟩
  rintro j ⟨c, hc, hentry⟩
  exact Option.some.inj ((entryIndex?_eq hc hentry).symm.trans hi)

/-- The chunk of a named group is made from the slot of a group with its name. -/
theorem exists_group_slot (hc : c ∈ shared g settings assets) (hname : c.group = some name) :
    ∃ k ids, (Slot.group k, ids) ∈ finalSlots g settings assets ∧ c.modules.Perm ids ∧
      (settings.groups.map (·.name)).getD k "" = name := by
  obtain ⟨⟨slot, ids⟩, hs, taken, rfl⟩ := exists_slot_of_mem hc
  cases slot with
  | group k =>
    refine ⟨k, ids, hs, List.mergeSort_perm _ _, ?_⟩
    simpa [Plan.chunk, Plan.baseName, plan] using hname
  | entry i => simp [Plan.chunk] at hname
  | sharedInitial names => simp [Plan.chunk] at hname
  | sharedAsync names => simp [Plan.chunk] at hname
  | async i => simp [Plan.chunk] at hname

/-- A chunk of the group at a place. -/
structure GroupChunk (g : ModuleGraph) (settings : SplitSettings) (assets : List ModuleId) (k : Nat)
    (c : Chunk) : Prop where
  named : ∃ group, settings.groups[k]? = some group ∧ c.group = some group.name
  /-- The group claims something. -/
  claims : ∃ id ∈ code g assets, ClaimedBy g settings.groups k id
  /-- The chunk holds what the group claims. -/
  members : ∀ id, id ∈ c.modules ↔ id ∈ code g assets ∧ ClaimedBy g settings.groups k id

/-- A chunk that is made from the slot of a group holds what the group claims. -/
theorem mem_group_modules_iff {ids : List ModuleId}
    (hs : (Slot.group k, ids) ∈ finalSlots g settings assets) (hperm : c.modules.Perm ids) :
    id ∈ c.modules ↔ id ∈ code g assets ∧ ClaimedBy g settings.groups k id := by
  rw [mem_modules_iff hs rfl hperm]
  apply and_congr_right
  exact slot?_eq_group_iff

/-- The slot of a group is there only for what the group claims. -/
theorem exists_claimed_of_group_mem {ids : List ModuleId}
    (hs : (Slot.group k, ids) ∈ finalSlots g settings assets) :
    ∃ id ∈ code g assets, ClaimedBy g settings.groups k id := by
  -- merging fills no slot of a group, and only entries have empty slots before it
  have hfilled : ∀ id ∈ code g assets, (plan g settings.groups assets).slot? id ≠ none := by
    intro id hid
    obtain ⟨hin, hcode⟩ := mem_code.1 hid
    exact slot?_ne_none hin hcode
  have hne : ids ≠ [] := by
    rcases ne_nil_of_mem_slots hfilled _ ((mem_finalSlots_iff rfl).1 hs) with ⟨i, hi⟩ | hne
    · cases hi
    · exact hne
  obtain ⟨x, hx⟩ := List.exists_mem_of_ne_nil ids hne
  obtain ⟨hcode, hslot⟩ := (mem_modules_iff hs rfl (List.Perm.refl _)).1 hx
  exact ⟨x, hcode, (slot?_eq_group_iff hcode).1 hslot⟩

/-- The chunk of a named group holds what a group of its name claims, and that is not nothing. -/
theorem exists_groupChunk (hc : c ∈ shared g settings assets) (hname : c.group = some name) :
    ∃ k, GroupChunk g settings assets k c := by
  obtain ⟨k, ids, hslot, hperm, hgroupName⟩ := exists_group_slot hc hname
  obtain ⟨x, hcode, hclaimed⟩ := exists_claimed_of_group_mem hslot
  obtain ⟨group, hgroup, hadmits⟩ := hclaimed
  refine ⟨k, ?_, ⟨x, hcode, group, hgroup, hadmits⟩, fun _ => mem_group_modules_iff hslot hperm⟩
  refine ⟨group, hgroup, ?_⟩
  rw [hname, ← hgroupName]
  simp [List.getD, hgroup]

/-- A group that claims some module has one chunk. -/
theorem exists_unique_groupChunk (hid : id ∈ code g assets)
    (hclaimed : ClaimedBy g settings.groups k id) :
    ∃! i : Nat, ∃ c : Chunk, (shared g settings assets)[i]? = some c ∧
      GroupChunk g settings assets k c := by
  have hfilled := filled_code g assets settings
  have hslot : (plan g settings.groups assets).slot? id = some (.group k) :=
    slot?_of_claimedBy hid hclaimed
  obtain ⟨⟨slot, ids⟩, hs, hmem⟩ := exists_slot_of_filled hfilled hid
  obtain rfl : slot = .group k := Option.some.inj ((hfilled.placed _ hs id hmem).symm.trans hslot)
  have hfinal : (Slot.group k, ids) ∈ finalSlots g settings assets := (mem_finalSlots_iff rfl).2 hs
  obtain ⟨c, hc, taken, hmade⟩ := exists_chunk_of_mem hfinal
  have hperm : c.modules.Perm ids := by
    rw [hmade]
    exact List.mergeSort_perm _ _
  have hnamed : ∃ group, settings.groups[k]? = some group ∧ c.group = some group.name := by
    obtain ⟨group, hgroup, -⟩ := hclaimed
    refine ⟨group, hgroup, ?_⟩
    rw [hmade]
    simp [Plan.chunk, Plan.baseName, plan, List.getD, hgroup]
  obtain ⟨i, hi⟩ := List.getElem?_of_mem hc
  refine ⟨i, ⟨c, hi, hnamed, ⟨id, hid, hclaimed⟩, fun _ => mem_group_modules_iff hfinal hperm⟩, ?_⟩
  -- another chunk would hold the module too
  rintro j ⟨c', hj, hother⟩
  have hmem' : id ∈ c'.modules := (hother.members id).2 ⟨hid, hclaimed⟩
  exact ChunkSet.place_unique nodup_modules ⟨c', hj, hmem'⟩ ⟨c, hi, hperm.mem_iff.2 hmem⟩

/-- Where nothing is merged, two modules share a chunk when they have the same slot. -/
theorem exists_common_chunk_iff (hzero : settings.minSize = 0) (hx : x ∈ code g assets)
    (hy : y ∈ code g assets) :
    (∃ c ∈ shared g settings assets, x ∈ c.modules ∧ y ∈ c.modules) ↔
      (plan g settings.groups assets).slot? x = (plan g settings.groups assets).slot? y := by
  have hfilled := filled_code g assets settings
  have hfinal : finalSlots g settings assets =
      (plan g settings.groups assets).slots (code g assets) := by
    rw [finalSlots, hzero, SlotMap.mergeSmall_zero]
  constructor
  · rintro ⟨c, hc, hxc, hyc⟩
    obtain ⟨s, hs, taken, rfl⟩ := exists_slot_of_mem hc
    rw [hfinal] at hs
    have hxs := ((mem_of_filled_iff hfilled hs).1 (List.mem_mergeSort.1 hxc)).2
    have hys := ((mem_of_filled_iff hfilled hs).1 (List.mem_mergeSort.1 hyc)).2
    rw [hxs, hys]
  · intro h
    obtain ⟨s, hs, hxs⟩ := exists_slot_of_filled hfilled hx
    have hslot := ((mem_of_filled_iff hfilled hs).1 hxs).2
    have hys : y ∈ s.2 := (mem_of_filled_iff hfilled hs).2 ⟨hy, h.symm.trans hslot⟩
    obtain ⟨c, hc, taken, rfl⟩ := exists_chunk_of_mem (hfinal ▸ hs)
    exact ⟨_, hc, List.mem_mergeSort.2 hxs, List.mem_mergeSort.2 hys⟩

/-! ## The placement of a graph -/

/-- Chunks that hold the code modules of a graph where they belong. -/
structure Placed (g : ModuleGraph) (settings : SplitSettings) (assets : List ModuleId)
    (chunks : ChunkSet) : Prop where
  entries : ∀ e ∈ g.entries, ∃! i, chunks.StartsAt i e.1
  /-- The chunk of an entry holds what the entry loads at its start, no other entry reaches and no
  named group claims. -/
  entry : ∀ e ∈ g.entries, ∀ c ∈ chunks, c.entry = some e.1 → ∀ id, id ∈ c.modules ↔
    id ∈ code g assets ∧ g.Loads e.2 id ∧ (∀ f ∈ g.entries, f.1 ≠ e.1 → ¬g.Reaches f.2 id) ∧
      Unclaimed g settings.groups id
  /-- A group that claims something has one chunk, with all that it claims. -/
  groups : ∀ k, (∃ id ∈ code g assets, ClaimedBy g settings.groups k id) →
    ∃! i : Nat, ∃ c : Chunk, chunks[i]? = some c ∧ GroupChunk g settings assets k c
  /-- There is no other chunk of a named group, and none for a group that claims nothing. -/
  group : ∀ c ∈ chunks, ∀ name, c.group = some name → ∃ k, GroupChunk g settings assets k c
  /-- The boundaries of the graph are there, so that the next promise means something. -/
  bounded : ∃ targets rest, IsBoundaries g assets targets rest
  /-- Without merging, what no group claims is together with what the same entries reach, if some
  entry loads it at its start, and otherwise with what is loaded with the same boundaries. -/
  together : settings.minSize = 0 → ∀ targets rest, IsBoundaries g assets targets rest →
    ∀ x ∈ code g assets, ∀ y ∈ code g assets, Unclaimed g settings.groups x →
      Unclaimed g settings.groups y →
      ((∃ c ∈ chunks, x ∈ c.modules ∧ y ∈ c.modules) ↔
        (g.LoadedAtStart x ∧ g.LoadedAtStart y ∧
            ∀ e ∈ g.entries, (g.Reaches e.2 x ↔ g.Reaches e.2 y)) ∨
          (¬g.LoadedAtStart x ∧ ¬g.LoadedAtStart y ∧
            ∀ b ∈ targets ++ rest, (g.Loads [b] x ↔ g.Loads [b] y)))

/-- Splitting for production puts every module where it belongs: for every graph, all copies, any
smallest size and any named groups. -/
theorem split_placed (g : ModuleGraph) (p : Profile) (settings : SplitSettings)
    (hproduction : p.split? = some settings) (assets : List ModuleId) :
    Placed g settings assets (g.split p assets) := by
  simp only [ModuleGraph.split, hproduction]
  constructor
  case entries => exact fun e he => exists_unique_startsAt he
  case entry => exact fun e he c hc hentry id => mem_entry_chunk_iff hc he hentry
  case groups =>
    rintro k ⟨id, hid, hclaimed⟩
    exact exists_unique_groupChunk hid hclaimed
  case group => exact fun c hc name hname => exists_groupChunk hc hname
  case bounded =>
    obtain ⟨targets, rest, hboundaries, -⟩ := exists_isBoundaries g settings.groups assets
    exact ⟨targets, rest, hboundaries⟩
  case together =>
    intro hzero targets rest hboundaries x hx y hy hfreex hfreey
    rw [exists_common_chunk_iff hzero hx hy]
    exact slot?_eq_iff hx hy hfreex hfreey hboundaries

/-- A named group that takes what is loaded at a start. -/
def utilities : ChunkGroup := { name := "common", test := .ofLiteral "util", chunks := .initial }

/-- Production without merging and with one named group. -/
def grouped : Profile :=
  .ofLayer { split := some { minSize := some 0, groups := some [utilities] } } .production {}

/-- What the pages share is in the chunk of the group, and what is loaded on demand in a chunk of
its own. -/
theorem split_placed_twoPages :
    grouped.split? = some { minSize := 0, groups := [utilities] } ∧
      ((twoPages.split grouped []).map fun c => (c.name, c.modules)) =
        [("main", [⟨"main.js"⟩]), ("help", [⟨"help.js"⟩]), ("common", [⟨"util.js"⟩]),
          ("lazy", [⟨"lazy.js"⟩])] ∧
      Placed twoPages { minSize := 0, groups := [utilities] } [] (twoPages.split grouped []) :=
  ⟨rfl, by decide +kernel, split_placed twoPages grouped _ rfl []⟩

end Split

end Bindery
