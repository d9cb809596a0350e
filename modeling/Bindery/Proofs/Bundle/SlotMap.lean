import Mathlib.Data.List.Perm.Basic
import Bindery.Proofs.Graph.Closure
import Bindery.Bundle.Slot

/-!
# Slots while they are filled and merged

Filling a slot and merging two slots move modules and never lose or copy one. What is said here
holds of any slots:

* `lt_trans`, `lt_of_ne` : the order of slots is a strict total order.
* `ids_append`, `ids_merge` : the members of all slots stay the same, as a list without order.
* `inOrder_append`, `inOrder_merge` : a slot occurs once.
* `allIn_append`, `allIn_merge` : what is true of every member of its slot stays true.
* `nextMerge?_spec` : what is known about the two slots of a merge.
* `mergeSmall_induction` : what every merge keeps is kept by merging until nothing moves.
-/

namespace Bindery

namespace Slot

/-! ## The order of slots -/

theorem lt_irrefl (a : Slot) : a.lt a = false := by
  cases a <;> simp [lt]

theorem lt_trans {a b c : Slot} (hab : a.lt b = true) (hbc : b.lt c = true) : a.lt c = true := by
  -- slots of different classes are settled by their ranks
  cases a <;> cases b <;> cases c <;> simp [lt, rank] at hab hbc ⊢
  case entry.entry.entry => exact Nat.lt_trans hab hbc
  case group.group.group => exact Nat.lt_trans hab hbc
  case async.async.async => exact Nat.lt_trans hab hbc
  case sharedInitial.sharedInitial.sharedInitial => exact List.lt_trans hab hbc
  case sharedAsync.sharedAsync.sharedAsync => exact List.lt_trans hab hbc

theorem lt_of_ne {a b : Slot} (hne : a ≠ b) (h : a.lt b = false) : b.lt a = true := by
  have hnames : ∀ x y : List String, x ≠ y → y ≤ x → y < x := by
    intro x y hxy hle
    exact Std.lt_of_le_of_ne hle (Ne.symm hxy)
  cases a <;> cases b <;> simp [lt, rank] at hne h ⊢
  case entry.entry => omega
  case group.group => omega
  case async.async => omega
  case sharedInitial.sharedInitial => exact hnames _ _ hne h
  case sharedAsync.sharedAsync => exact hnames _ _ hne h

theorem ne_of_lt {a b : Slot} (h : a.lt b = true) : a ≠ b := by
  rintro rfl
  simp [lt_irrefl] at h

theorem isMergeable_of_canJoin {s t : Slot} (h : s.canJoin t = true) : t.isMergeable = true := by
  simp only [canJoin, Bool.and_eq_true] at h
  exact h.1.2

end Slot

namespace SlotMap

/-- The members of all slots. -/
def ids (slots : SlotMap) : List ModuleId := slots.flatMap (·.2)

/-- The slots are in order, and a slot occurs once. -/
def InOrder (slots : SlotMap) : Prop := slots.Pairwise fun a b => a.1.lt b.1 = true

/-- Every member stands in a relation to its slot. -/
def AllIn (P : Slot → ModuleId → Prop) (slots : SlotMap) : Prop :=
  ∀ s ∈ slots, ∀ id ∈ s.2, P s.1 id

variable {slots : SlotMap} {slot : Slot} {xs : List ModuleId} {P : Slot → ModuleId → Prop}

/-! ## Filling a slot -/

theorem mem_append {s : Slot × List ModuleId} (h : s ∈ append slot xs slots) :
    s ∈ slots ∨ ∃ ys, (ys = [] ∨ (slot, ys) ∈ slots) ∧ s = (slot, ys ++ xs) := by
  induction slots with
  | nil => exact .inr ⟨[], .inl rfl, by simpa [append] using h⟩
  | cons t r ih =>
    rcases t with ⟨k, ys⟩
    simp only [append] at h
    split at h
    · next hk =>
      rcases List.mem_cons.1 h with h | h
      · exact .inr ⟨ys, .inr (by simp [hk]), by rw [h, hk]⟩
      · exact .inl (List.mem_cons_of_mem _ h)
    · split at h
      · rcases List.mem_cons.1 h with h | h
        · exact .inr ⟨[], .inl rfl, by simpa using h⟩
        · exact .inl h
      · rcases List.mem_cons.1 h with h | h
        · exact .inl (by simp [h])
        · rcases ih h with h | ⟨zs, hz, hs⟩
          · exact .inl (List.mem_cons_of_mem _ h)
          · exact .inr ⟨zs, hz.imp_right (List.mem_cons_of_mem _), hs⟩

theorem inOrder_append (h : InOrder slots) : InOrder (append slot xs slots) := by
  induction slots with
  | nil => exact List.pairwise_singleton _ _
  | cons t r ih =>
    rcases t with ⟨k, ys⟩
    rcases List.pairwise_cons.1 h with ⟨hk, hr⟩
    simp only [append]
    split
    · exact List.pairwise_cons.2 ⟨hk, hr⟩
    · next hne =>
      split
      · next hlt =>
        refine List.pairwise_cons.2 ⟨?_, h⟩
        intro s hs
        rcases List.mem_cons.1 hs with rfl | hs
        · exact hlt
        · exact Slot.lt_trans hlt (hk s hs)
      · next hnlt =>
        refine List.pairwise_cons.2 ⟨?_, ih hr⟩
        intro s hs
        rcases mem_append hs with hs | ⟨zs, -, rfl⟩
        · exact hk s hs
        · exact Slot.lt_of_ne hne (by simpa using hnlt)

theorem ids_append (slot : Slot) (xs : List ModuleId) (slots : SlotMap) :
    (append slot xs slots).ids.Perm (xs ++ slots.ids) := by
  induction slots with
  | nil => simp [append, ids]
  | cons t r ih =>
    rcases t with ⟨k, ys⟩
    -- the added members pass those of the slots before
    have hpass : (ys ++ (xs ++ r.flatMap (·.2))).Perm (xs ++ (ys ++ r.flatMap (·.2))) := by
      rw [← List.append_assoc, ← List.append_assoc]
      exact List.perm_append_comm.append_right _
    simp only [append]
    split
    · simpa only [ids, List.flatMap_cons, List.append_assoc] using hpass
    · split
      · simp [ids]
      · simp only [ids, List.flatMap_cons] at ih ⊢
        exact (ih.append_left ys).trans hpass

theorem allIn_append (h : AllIn P slots) (hxs : ∀ id ∈ xs, P slot id) :
    AllIn P (append slot xs slots) := by
  intro s hs id hid
  rcases mem_append hs with hs | ⟨ys, hys, rfl⟩
  · exact h s hs id hid
  · rcases List.mem_append.1 hid with hid | hid
    · rcases hys with rfl | hys
      · simp at hid
      · exact h _ hys id hid
    · exact hxs id hid

/-- Filling a slot removes no slot. -/
theorem exists_mem_append {k : Slot} (h : ∃ ys, (k, ys) ∈ slots) :
    ∃ ys, (k, ys) ∈ append slot xs slots := by
  induction slots with
  | nil => simp at h
  | cons t r ih =>
    rcases t with ⟨j, zs⟩
    rcases h with ⟨ys, hys⟩
    simp only [append]
    rcases List.mem_cons.1 hys with hys | hys
    · rcases Prod.mk.inj hys with ⟨rfl, rfl⟩
      split
      · exact ⟨_, List.mem_cons_self⟩
      · split
        · exact ⟨_, List.mem_cons_of_mem _ List.mem_cons_self⟩
        · exact ⟨_, List.mem_cons_self⟩
    · split
      · exact ⟨ys, List.mem_cons_of_mem _ hys⟩
      · split
        · exact ⟨ys, List.mem_cons_of_mem _ (List.mem_cons_of_mem _ hys)⟩
        · rcases ih ⟨ys, hys⟩ with ⟨ws, hws⟩
          exact ⟨ws, List.mem_cons_of_mem _ hws⟩

/-! ## Merging two slots -/

theorem mem_remove {s : Slot × List ModuleId} : s ∈ remove slot slots ↔ s ∈ slots ∧ s.1 ≠ slot := by
  simp [remove]

/-- Slots in order are one of them and the others. -/
theorem perm_cons_remove {source : Slot × List ModuleId} (h : InOrder slots)
    (hs : source ∈ slots) : slots.Perm (source :: remove source.1 slots) := by
  induction slots with
  | nil => simp at hs
  | cons t r ih =>
    rcases List.pairwise_cons.1 h with ⟨ht, hr⟩
    rcases List.mem_cons.1 hs with rfl | hs
    · -- the slots behind it are greater, so that none of them is the same slot
      have hkeep : remove source.1 (source :: r) = r := by
        simp only [remove, bne_self_eq_false, Bool.false_eq_true, not_false_eq_true,
          List.filter_cons_of_neg]
        refine List.filter_eq_self.2 ?_
        intro s hs
        exact bne_iff_ne.2 (Ne.symm (Slot.ne_of_lt (ht s hs)))
      rw [hkeep]
    · have hne : t.1 ≠ source.1 := Slot.ne_of_lt (ht source hs)
      have hkeep : remove source.1 (t :: r) = t :: remove source.1 r := by
        simp [remove, hne]
      rw [hkeep]
      exact ((ih hr hs).cons t).trans (List.Perm.swap _ _ _)

variable {source : Slot × List ModuleId} {target : Slot}

theorem ids_merge (h : InOrder slots) (hs : source ∈ slots) :
    (merge slots source target).ids.Perm slots.ids := by
  have hsplit : slots.ids.Perm (source.2 ++ (remove source.1 slots).ids) := by
    simpa [ids] using (perm_cons_remove h hs).flatMap_right (·.2)
  exact (ids_append target source.2 _).trans hsplit.symm

theorem inOrder_merge (h : InOrder slots) : InOrder (merge slots source target) :=
  inOrder_append (h.filter _)

theorem allIn_merge (h : AllIn P slots) (htarget : ∀ id ∈ source.2, P target id) :
    AllIn P (merge slots source target) :=
  allIn_append (fun s hs => h s (mem_remove.1 hs).1) htarget

/-- A merge removes no slot but the one that is merged. -/
theorem exists_mem_merge {k : Slot} (h : ∃ ys, (k, ys) ∈ slots) (hk : k ≠ source.1) :
    ∃ ys, (k, ys) ∈ merge slots source target := by
  rcases h with ⟨ys, hys⟩
  exact exists_mem_append ⟨ys, mem_remove.2 ⟨hys, hk⟩⟩

/-! ## Merging until nothing moves -/

variable {g : ModuleGraph} {minSize : Nat}

theorem mem_of_owner? {id : ModuleId} (h : slots.owner? id = some slot) :
    ∃ ys, (slot, ys) ∈ slots ∧ id ∈ ys := by
  simp only [owner?, Option.map_eq_some_iff] at h
  rcases h with ⟨s, hs, rfl⟩
  exact ⟨s.2, List.mem_of_find?_eq_some hs, by simpa using List.find?_some hs⟩

/-- A merge takes a slot that is too small into another one that is loaded at the same time. -/
theorem nextMerge?_spec (h : slots.nextMerge? g minSize = some (source, target)) :
    source ∈ slots ∧ source.1.isMergeable = true ∧ g.totalSize source.2 < minSize ∧
      source.1.canJoin target = true ∧ ∃ ys, (target, ys) ∈ slots := by
  rcases List.exists_of_findSome?_eq_some h with ⟨s, hs, hjoin⟩
  simp only [Option.map_eq_some_iff, Prod.mk.injEq] at hjoin
  rcases hjoin with ⟨t, ht, rfl, rfl⟩
  have hsmall := List.mem_mergeSort.1 hs
  simp only [List.mem_filter, decide_eq_true_eq] at hsmall
  rcases List.mem_filterMap.1 (List.mem_of_find?_eq_some ht) with ⟨importer, -, howner⟩
  rcases mem_of_owner? howner with ⟨ys, hys, -⟩
  exact ⟨hsmall.1.1, hsmall.1.2, hsmall.2, List.find?_some ht, ys, hys⟩

/-- What holds of some slots and is kept by every merge holds when nothing moves any more. -/
theorem mergeSmall_induction {motive : SlotMap → Prop} (h : motive slots)
    (hmerge : ∀ slots source target, motive slots →
      slots.nextMerge? g minSize = some (source, target) → motive (merge slots source target)) :
    motive (mergeSmall g minSize slots) := by
  suffices hall : ∀ fuel slots, motive slots → motive (mergeAll g minSize fuel slots) from
    hall _ _ h
  intro fuel
  induction fuel with
  | zero => exact fun _ h => h
  | succ n ih =>
    intro slots h
    unfold mergeAll
    split
    · exact h
    · next source target hnext => exact ih _ (hmerge _ _ _ h hnext)

end SlotMap

end Bindery
