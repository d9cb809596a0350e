import Mathlib.Data.List.Pairwise
import Bindery.Proofs.Bundle.Partition

/-!
# Merging comes to an end

Slots are merged in rounds. A round takes all members of a slot that is too small into the slot of
one of their importers, so there is one slot less afterwards and the rounds come to an end. What one
round keeps is kept by all of them: no member is lost or listed twice, members of one slot stay
together, slots of entries and of named groups are not touched, and what is loaded at a start never
comes together with what is loaded on demand. When no round is left, no slot that is too small has
an importer in another slot that it may be merged into.

* `Round` : one round.
* `exists_of_round` : what a round does.
* `length_of_round`, `acc_round` : rounds come to an end.
* `Coarser`, `coarser_of_round`, `coarser_of_rounds` : what one round keeps, and all of them.
* `rounds_mergeSmall` : merging goes through its rounds until none is left.
* `mergeSmall_settles` : what merging comes to.
-/

namespace Bindery

namespace SlotMap

variable {g : ModuleGraph} {minSize : Nat} {slots next merged : SlotMap} {slot : Slot}
  {xs ys : List ModuleId}

/-! ## Slots that hold each module once -/

/-- Slots in order that hold no module twice. -/
structure IsPartition (slots : SlotMap) : Prop where
  inOrder : slots.InOrder
  nodup : slots.ids.Nodup

/-- A slot is there once. -/
theorem eq_of_slot_eq (h : slots.InOrder) {s t : Slot × List ModuleId} (hs : s ∈ slots)
    (ht : t ∈ slots) (heq : s.1 = t.1) : s = t := by
  have hkeys : (slots.map (·.1)).Nodup := List.pairwise_map.2 (h.imp Slot.ne_of_lt)
  exact List.inj_on_of_nodup_map hkeys hs ht heq

/-- A module is in one slot only. -/
theorem IsPartition.eq_of_mem (h : slots.IsPartition) {s t : Slot × List ModuleId} (hs : s ∈ slots)
    (ht : t ∈ slots) {id : ModuleId} (hid : id ∈ s.2) (hid' : id ∈ t.2) : s = t := by
  by_contra hne
  have hapart : slots.Pairwise fun s t => List.Disjoint s.2 t.2 := (List.nodup_flatMap.1 h.nodup).2
  have hsymm : Std.Symm fun s t : Slot × List ModuleId => List.Disjoint s.2 t.2 :=
    ⟨fun _ _ hst => List.disjoint_symm hst⟩
  have hdisjoint : List.Disjoint s.2 t.2 := hapart.forall hs ht hne
  exact hdisjoint hid hid'

/-- The slot that is found for a module is the one that holds it. -/
theorem IsPartition.owner?_eq (h : slots.IsPartition) {t : Slot × List ModuleId} (ht : t ∈ slots)
    {id : ModuleId} (hid : id ∈ t.2) : slots.owner? id = some t.1 := by
  have hfound : (slots.find? fun s => s.2.contains id).isSome = true := by
    rw [List.find?_isSome]
    exact ⟨t, ht, List.contains_iff_mem.2 hid⟩
  obtain ⟨s, hs⟩ := Option.isSome_iff_exists.1 hfound
  have hmem : id ∈ s.2 := by simpa using List.find?_some hs
  have hst : s = t := h.eq_of_mem (List.mem_of_find?_eq_some hs) ht hmem hid
  rw [owner?, hs, hst, Option.map_some]

/-! ## One round -/

/-- Adding members to a slot that is there changes nothing else. -/
theorem exists_append_eq (h : slots.InOrder) (hmem : (slot, ys) ∈ slots) :
    ∃ before after, slots = before ++ (slot, ys) :: after ∧
      append slot xs slots = before ++ (slot, ys ++ xs) :: after := by
  induction slots with
  | nil => exact absurd hmem List.not_mem_nil
  | cons s r ih =>
    rcases s with ⟨k, zs⟩
    obtain ⟨hk, hr⟩ := List.pairwise_cons.1 h
    rcases List.mem_cons.1 hmem with heq | hmem
    · obtain ⟨rfl, rfl⟩ := Prod.mk.inj heq
      refine ⟨[], r, rfl, ?_⟩
      simp only [append, if_true, List.nil_append]
    · -- the slots before it are smaller, so that it is not put in front of one of them
      have hlt : k.lt slot = true := hk _ hmem
      have hne : slot ≠ k := Ne.symm (Slot.ne_of_lt hlt)
      have hnlt : ¬slot.lt k = true := by
        intro hgt
        have hself := Slot.lt_trans hlt hgt
        rw [Slot.lt_irrefl] at hself
        exact Bool.false_ne_true hself
      obtain ⟨before, after, hsplit, happend⟩ := ih hr hmem
      refine ⟨(k, zs) :: before, after, ?_, ?_⟩
      · rw [hsplit, List.cons_append]
      · rw [append, if_neg hne, if_neg hnlt, happend, List.cons_append]

/-- One round of merging: of the slots that are too small the first that has somewhere to go is
merged. -/
def Round (g : ModuleGraph) (minSize : Nat) (slots next : SlotMap) : Prop :=
  ∃ source target, slots.nextMerge? g minSize = some (source, target) ∧
    next = slots.merge source target

/-- A round takes one slot away and puts its members behind those of another one that is loaded at
the same time. -/
theorem exists_of_round (h : slots.InOrder) (hround : Round g minSize slots next) :
    ∃ source target ys before after,
      slots.Perm (source :: (before ++ (target, ys) :: after)) ∧
      next = before ++ (target, ys ++ source.2) :: after ∧
      source.1.canJoin target = true ∧ source.1.isMergeable = true := by
  obtain ⟨source, target, hnext, rfl⟩ := hround
  obtain ⟨hsource, hmergeable, -, hjoin, ys, htarget⟩ := nextMerge?_spec hnext
  have hne : target ≠ source.1 := by
    intro heq
    simp [Slot.canJoin, heq] at hjoin
  have hkept : (target, ys) ∈ remove source.1 slots := mem_remove.2 ⟨htarget, hne⟩
  have hord : InOrder (remove source.1 slots) := h.filter _
  obtain ⟨before, after, hsplit, happend⟩ := exists_append_eq hord hkept
  refine ⟨source, target, ys, before, after, ?_, happend, hjoin, hmergeable⟩
  rw [← hsplit]
  exact perm_cons_remove h hsource

theorem isPartition_of_round (h : slots.IsPartition) (hround : Round g minSize slots next) :
    next.IsPartition := by
  obtain ⟨source, target, hnext, rfl⟩ := hround
  obtain ⟨hsource, -⟩ := nextMerge?_spec hnext
  exact ⟨inOrder_merge h.inOrder, (ids_merge h.inOrder hsource).nodup_iff.2 h.nodup⟩

/-- There is one slot less after a round. -/
theorem length_of_round (h : slots.InOrder) (hround : Round g minSize slots next) :
    next.length + 1 = slots.length := by
  obtain ⟨source, target, ys, before, after, hperm, rfl, -, -⟩ := exists_of_round h hround
  have hlength := hperm.length_eq
  simp only [List.length_cons, List.length_append] at hlength ⊢
  omega

/-- From slots in order the rounds come to an end. -/
theorem acc_round (h : slots.InOrder) :
    Acc (fun later earlier => Round g minSize earlier later) slots := by
  -- a round leaves one slot less, so the induction is on the number of slots
  induction hlength : slots.length using Nat.strongRecOn generalizing slots with
  | _ n ih =>
    constructor
    intro next hround
    have hord : next.InOrder := by
      obtain ⟨source, target, -, rfl⟩ := hround
      exact inOrder_merge h
    have hless := length_of_round h hround
    exact ih next.length (by omega) hord rfl

/-! ## What rounds keep -/

/-- Slots that are made from others by putting whole slots together. -/
structure Coarser (slots merged : SlotMap) : Prop where
  /-- No member is lost, and none is there twice. -/
  ids : merged.ids.Perm slots.ids
  /-- Members of a slot stay together. -/
  whole : ∀ s ∈ slots, ∃ t ∈ merged, s.2 ⊆ t.2
  /-- What is put together is loaded at the same time. -/
  sameTime : ∀ s ∈ slots, ∀ t ∈ merged, (∃ id ∈ s.2, id ∈ t.2) → t.1.onDemand? = s.1.onDemand?
  /-- Slots of entries and of named groups are the same as before. -/
  named : ∀ s : Slot × List ModuleId, s.1.isMergeable = false → (s ∈ merged ↔ s ∈ slots)
  /-- No slot is new. -/
  known : ∀ t ∈ merged, ∃ xs, (t.1, xs) ∈ slots

theorem IsPartition.coarser_self (h : slots.IsPartition) : Coarser slots slots where
  ids := .refl _
  whole := fun s hs => ⟨s, hs, List.Subset.refl _⟩
  sameTime := by
    rintro s hs t ht ⟨id, hid, hid'⟩
    rw [h.eq_of_mem hs ht hid hid']
  named := fun _ _ => Iff.rfl
  known := fun t ht => ⟨t.2, ht⟩

theorem Coarser.trans (h : Coarser slots next) (h' : Coarser next merged) :
    Coarser slots merged where
  ids := h'.ids.trans h.ids
  whole := by
    intro s hs
    obtain ⟨t, ht, hst⟩ := h.whole s hs
    obtain ⟨u, hu, htu⟩ := h'.whole t ht
    exact ⟨u, hu, List.Subset.trans hst htu⟩
  sameTime := by
    rintro s hs u hu ⟨id, hid, hid'⟩
    obtain ⟨t, ht, hst⟩ := h.whole s hs
    have hfirst : t.1.onDemand? = s.1.onDemand? := h.sameTime s hs t ht ⟨id, hid, hst hid⟩
    have hsecond : u.1.onDemand? = t.1.onDemand? := h'.sameTime t ht u hu ⟨id, hst hid, hid'⟩
    exact hsecond.trans hfirst
  named := fun s hs => (h'.named s hs).trans (h.named s hs)
  known := by
    intro u hu
    obtain ⟨xs, hxs⟩ := h'.known u hu
    exact h.known (u.1, xs) hxs

/-- A round puts two whole slots together. -/
theorem coarser_of_round (h : slots.IsPartition) (hround : Round g minSize slots next) :
    Coarser slots next := by
  have hids : next.ids.Perm slots.ids := by
    obtain ⟨source, target, hnext, rfl⟩ := hround
    exact ids_merge h.inOrder (nextMerge?_spec hnext).1
  obtain ⟨source, target, ys, before, after, hperm, rfl, hjoin, hmergeable⟩ :=
    exists_of_round h.inOrder hround
  -- the slots before and after the round differ in the two that come together only
  have hbefore : ∀ s, s ∈ slots ↔ s = source ∨ s ∈ before ∨ s = (target, ys) ∨ s ∈ after := by
    intro s
    rw [hperm.mem_iff]
    simp only [List.mem_cons, List.mem_append]
  have hafter : ∀ s, s ∈ before ++ (target, ys ++ source.2) :: after ↔
      s ∈ before ∨ s = (target, ys ++ source.2) ∨ s ∈ after := by
    intro s
    simp only [List.mem_cons, List.mem_append]
  have hsource : source ∈ slots := (hbefore _).2 (.inl rfl)
  have htarget : (target, ys) ∈ slots := (hbefore _).2 (.inr (.inr (.inl rfl)))
  have htime : target.onDemand? = source.1.onDemand? := by
    simp only [Slot.canJoin, Bool.and_eq_true, beq_iff_eq] at hjoin
    exact hjoin.2
  constructor
  case ids => exact hids
  case whole =>
    intro s hs
    rcases (hbefore s).1 hs with rfl | hs | rfl | hs
    · exact ⟨_, (hafter _).2 (.inr (.inl rfl)), List.subset_append_right _ _⟩
    · exact ⟨s, (hafter _).2 (.inl hs), List.Subset.refl _⟩
    · exact ⟨_, (hafter _).2 (.inr (.inl rfl)), List.subset_append_left _ _⟩
    · exact ⟨s, (hafter _).2 (.inr (.inr hs)), List.Subset.refl _⟩
  case sameTime =>
    rintro s hs t ht ⟨id, hid, hid'⟩
    have hold : t ∈ slots → t.1.onDemand? = s.1.onDemand? := by
      intro ht
      rw [h.eq_of_mem hs ht hid hid']
    rcases (hafter t).1 ht with ht | rfl | ht
    · exact hold ((hbefore t).2 (.inr (.inl ht)))
    · -- the member was in the one slot or in the other
      rcases List.mem_append.1 hid' with hid' | hid'
      · rw [h.eq_of_mem hs htarget hid hid']
      · rw [h.eq_of_mem hs hsource hid hid']
        exact htime
    · exact hold ((hbefore t).2 (.inr (.inr (.inr ht))))
  case named =>
    intro s hs
    have hnsource : s ≠ source := by
      rintro rfl
      rw [hs] at hmergeable
      exact Bool.false_ne_true hmergeable
    have hntarget : ∀ zs, s ≠ (target, zs) := by
      rintro zs rfl
      rw [Slot.isMergeable_of_canJoin hjoin] at hs
      exact Bool.false_ne_true hs.symm
    rw [hbefore, hafter]
    simp only [hnsource, hntarget, false_or]
  case known =>
    intro t ht
    rcases (hafter t).1 ht with ht | rfl | ht
    · exact ⟨t.2, (hbefore t).2 (.inr (.inl ht))⟩
    · exact ⟨ys, htarget⟩
    · exact ⟨t.2, (hbefore t).2 (.inr (.inr (.inr ht)))⟩

/-- What any number of rounds comes to. -/
theorem coarser_of_rounds (h : slots.IsPartition)
    (hrounds : Relation.ReflTransGen (Round g minSize) slots merged) :
    merged.IsPartition ∧ Coarser slots merged := by
  induction hrounds with
  | refl => exact ⟨h, h.coarser_self⟩
  | tail _ hround ih =>
    obtain ⟨hpartition, hcoarser⟩ := ih
    exact ⟨isPartition_of_round hpartition hround,
      hcoarser.trans (coarser_of_round hpartition hround)⟩

/-! ## All rounds -/

/-- With a round allowed for every slot, merging goes on until no round is left. -/
theorem rounds_mergeAll {fuel : Nat} (h : slots.InOrder) (hfuel : slots.length ≤ fuel) :
    Relation.ReflTransGen (Round g minSize) slots (mergeAll g minSize fuel slots) ∧
      (mergeAll g minSize fuel slots).nextMerge? g minSize = none := by
  induction fuel generalizing slots with
  | zero =>
    obtain rfl : slots = [] := List.length_eq_zero_iff.1 (Nat.le_zero.1 hfuel)
    exact ⟨.refl, by simp [mergeAll, nextMerge?, tooSmall]⟩
  | succ n ih =>
    unfold mergeAll
    split
    · next hnone => exact ⟨.refl, hnone⟩
    · next source target hnext =>
      have hround : Round g minSize slots (slots.merge source target) :=
        ⟨source, target, hnext, rfl⟩
      -- the fuel that is left is enough for the slots that are left
      have hless := length_of_round h hround
      have hmerged : (slots.merge source target).InOrder := inOrder_merge h
      obtain ⟨hrounds, hend⟩ := ih hmerged (by omega)
      exact ⟨.head hround hrounds, hend⟩

/-- Merging goes through its rounds until none is left. -/
theorem rounds_mergeSmall (g : ModuleGraph) (minSize : Nat) (h : slots.InOrder) :
    Relation.ReflTransGen (Round g minSize) slots (slots.mergeSmall g minSize) ∧
      (slots.mergeSmall g minSize).nextMerge? g minSize = none :=
  rounds_mergeAll h (Nat.le_refl _)

/-- What merging does to slots that hold each module once. -/
theorem coarser_mergeSmall (h : slots.IsPartition) :
    (slots.mergeSmall g minSize).IsPartition ∧ Coarser slots (slots.mergeSmall g minSize) :=
  coarser_of_rounds h (rounds_mergeSmall g minSize h.inOrder).1

/-- Without a smallest size nothing is merged. -/
theorem mergeSmall_zero (g : ModuleGraph) (slots : SlotMap) : slots.mergeSmall g 0 = slots := by
  have hnone : slots.nextMerge? g 0 = none := by simp [nextMerge?, tooSmall]
  unfold mergeSmall
  cases slots.length with
  | zero => rfl
  | succ n => simp only [mergeAll, hnone]

/-- When no round is left, a slot that is too small has no importer in another slot that is loaded
at the same time. -/
theorem onDemand?_ne_of_imports (h : slots.IsPartition)
    (hend : slots.nextMerge? g minSize = none) {s t : Slot × List ModuleId} (hs : s ∈ slots)
    (hmergeable : s.1.isMergeable = true) (hsmall : g.totalSize s.2 < minSize) (ht : t ∈ slots)
    {id importer : ModuleId} (hid : id ∈ s.2) (himports : g.Imports importer id)
    (himporter : importer ∈ t.2) (hne : t.1 ≠ s.1) : t.1.onDemand? ≠ s.1.onDemand? := by
  intro htime
  have hsmallest : s ∈ slots.tooSmall g minSize := by
    simp only [tooSmall, List.mem_mergeSort, List.mem_filter, decide_eq_true_eq]
    exact ⟨⟨hs, hmergeable⟩, hsmall⟩
  have hnone : slots.joinTarget? g s = none := by
    have hall := List.findSome?_eq_none_iff.1 hend s hsmallest
    exact Option.map_eq_none_iff.1 hall
  have howner : t.1 ∈ ((s.2.flatMap g.dependents).map (·.importer)).filterMap slots.owner? := by
    refine List.mem_filterMap.2 ⟨importer, ?_, h.owner?_eq ht himporter⟩
    obtain ⟨d, hd, rfl⟩ := List.mem_map.1 (ModuleGraph.mem_importers.2 himports)
    exact List.mem_map_of_mem (List.mem_flatMap.2 ⟨id, hid, hd⟩)
  -- the slot of the importer is one that it could be merged into
  have hjoin : s.1.canJoin t.1 = true := by
    simp only [Slot.canJoin, Slot.isMergeable, Bool.and_eq_true, bne_iff_ne, beq_iff_eq]
    refine ⟨⟨hne, ?_⟩, htime⟩
    rw [htime]
    exact hmergeable
  exact List.find?_eq_none.1 hnone _ howner hjoin

/-- What merging slots comes to. -/
structure Settled (g : ModuleGraph) (minSize : Nat) (slots merged : SlotMap) : Prop
    extends Coarser slots merged where
  partition : merged.IsPartition
  /-- No slot that may be merged and is too small has a member with an importer in another slot that
  is loaded at the same time. -/
  settled : ∀ s ∈ merged, s.1.isMergeable = true → g.totalSize s.2 < minSize → ∀ id ∈ s.2,
    ∀ importer, g.Imports importer id → ∀ t ∈ merged, importer ∈ t.2 → t.1 ≠ s.1 →
      t.1.onDemand? ≠ s.1.onDemand?

/-- Merging comes to an end, wherever it starts: its rounds do, and it is what they lead to. It has
then only put whole slots together, and no slot that is too small has anywhere to go. -/
theorem mergeSmall_settles (g : ModuleGraph) (minSize : Nat) (slots : SlotMap)
    (h : slots.IsPartition) :
    Acc (fun later earlier => Round g minSize earlier later) slots ∧
      Relation.ReflTransGen (Round g minSize) slots (slots.mergeSmall g minSize) ∧
      (∀ next, ¬Round g minSize (slots.mergeSmall g minSize) next) ∧
      Settled g minSize slots (slots.mergeSmall g minSize) := by
  obtain ⟨hrounds, hend⟩ := rounds_mergeSmall g minSize h.inOrder
  obtain ⟨hpartition, hcoarser⟩ := coarser_of_rounds h hrounds
  refine ⟨acc_round h.inOrder, hrounds, ?_, ?_⟩
  · rintro next ⟨source, target, hnext, -⟩
    rw [hend] at hnext
    cases hnext
  · refine { hcoarser with partition := hpartition, settled := ?_ }
    intro s hs hmergeable hsmall id hid importer himports t ht himporter hne
    exact onDemand?_ne_of_imports hpartition hend hs hmergeable hsmall ht hid himports himporter hne

end SlotMap

/-! ## Pages that ask for more -/

namespace Split

/-- Two pages that share two modules. The first one asks for two others on demand, which both load a
third one. -/
def lazyPages : ModuleGraph :=
  .ofModules [("main", [⟨"main.js"⟩]), ("help", [⟨"help.js"⟩])]
    [letter "main.js"
        [⟨"./a", .dynamic, some ⟨"a.js"⟩⟩, ⟨"./b", .dynamic, some ⟨"b.js"⟩⟩,
          ⟨"./util", .static, some ⟨"util.js"⟩⟩],
      letter "help.js" [⟨"./util", .static, some ⟨"util.js"⟩⟩],
      letter "util.js" [⟨"./text", .static, some ⟨"text.js"⟩⟩], letter "text.js" [],
      letter "a.js" [⟨"./a1", .static, some ⟨"a1.js"⟩⟩, ⟨"./c", .static, some ⟨"c.js"⟩⟩],
      letter "a1.js" [],
      letter "b.js" [⟨"./b1", .static, some ⟨"b1.js"⟩⟩, ⟨"./c", .static, some ⟨"c.js"⟩⟩],
      letter "b1.js" [], letter "c.js" [⟨"./util", .static, some ⟨"util.js"⟩⟩]]

/-- The slots of their modules. -/
def lazySlots : SlotMap :=
  [(.entry 0, [⟨"main.js"⟩]), (.entry 1, [⟨"help.js"⟩]),
    (.sharedInitial ["main", "help"], [⟨"text.js"⟩, ⟨"util.js"⟩]),
    (.sharedAsync ["a", "b"], [⟨"c.js"⟩]), (.async 0, [⟨"a.js"⟩, ⟨"a1.js"⟩]),
    (.async 1, [⟨"b.js"⟩, ⟨"b1.js"⟩])]

/-- What both boundaries lead to is too small and is merged into the slot of its first importer.
Both entries keep their slots, though these are as small. -/
theorem mergeSmall_settles_lazySlots :
    lazySlots.IsPartition ∧
      lazySlots.mergeSmall lazyPages 2 =
        [(.entry 0, [⟨"main.js"⟩]), (.entry 1, [⟨"help.js"⟩]),
          (.sharedInitial ["main", "help"], [⟨"text.js"⟩, ⟨"util.js"⟩]),
          (.async 0, [⟨"a.js"⟩, ⟨"a1.js"⟩, ⟨"c.js"⟩]), (.async 1, [⟨"b.js"⟩, ⟨"b1.js"⟩])] ∧
      SlotMap.Settled lazyPages 2 lazySlots (lazySlots.mergeSmall lazyPages 2) := by
  have hpartition : lazySlots.IsPartition := by
    constructor
    · unfold SlotMap.InOrder
      decide
    · decide
  refine ⟨hpartition, by decide +kernel, ?_⟩
  exact (SlotMap.mergeSmall_settles lazyPages 2 lazySlots hpartition).2.2.2

end Split

end Bindery
