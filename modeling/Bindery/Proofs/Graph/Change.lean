import Bindery.Graph.Change
import Bindery.Proofs.Graph.Closure
import Bindery.Proofs.Graph.Snapshot

/-!
# Differences between graphs

* `ModuleGraph.Differs` : a module is in one of two graphs only, or its content is not the same.
* `ChangeSet.mem_changedIds_between` : the changed modules are those that differ.
* `ChangeSet.between_self` : nothing differs between a graph and itself.
-/

namespace Bindery

namespace ModuleGraph

/-- A module is in one of two graphs only, or its content is not the same in both. -/
def Differs (older newer : ModuleGraph) (id : ModuleId) : Prop :=
  (older.module? id).map (·.hash) ≠ (newer.module? id).map (·.hash)

end ModuleGraph

namespace ChangeSet

variable {older newer : ModuleGraph} {id : ModuleId}

theorem mem_modified_between : id ∈ (between older newer).modified ↔
    ∃ old m, older.module? id = some old ∧ newer.module? id = some m ∧ old.hash ≠ m.hash := by
  simp only [between, List.mem_filterMap]
  constructor
  · rintro ⟨m, hm, hmodified⟩
    split at hmodified
    · next old hold =>
      split at hmodified
      · simp at hmodified
      · next hhash =>
        obtain rfl : m.id = id := by simpa using hmodified
        exact ⟨old, m, hold, ModuleGraph.module?_eq_some_iff.2 ⟨hm, rfl⟩, hhash⟩
    · simp at hmodified
  · rintro ⟨old, m, hold, hnew, hhash⟩
    obtain ⟨hm, rfl⟩ := ModuleGraph.module?_eq_some_iff.1 hnew
    exact ⟨m, hm, by simp [hold, hhash]⟩

theorem mem_added_between : id ∈ (between older newer).added ↔
    older.module? id = none ∧ ∃ m, newer.module? id = some m := by
  simp only [between, List.mem_filter, Bool.not_eq_true']
  rw [ModuleGraph.module?_eq_none_iff, ModuleGraph.exists_module?_iff, ModuleGraph.contains_iff,
    and_comm]

theorem mem_removed_between : id ∈ (between older newer).removed ↔
    (∃ m, older.module? id = some m) ∧ newer.module? id = none := by
  simp only [between, List.mem_filter, Bool.not_eq_true']
  rw [ModuleGraph.module?_eq_none_iff, ModuleGraph.exists_module?_iff, ModuleGraph.contains_iff]

/-- The changed modules are those that differ. -/
theorem mem_changedIds_between :
    id ∈ (between older newer).changedIds ↔ older.Differs newer id := by
  rw [changedIds, IdSet.mem_ofList, List.mem_append, List.mem_append, mem_modified_between,
    mem_added_between, mem_removed_between, ModuleGraph.Differs]
  cases hold : older.module? id with
  | none =>
    cases hnew : newer.module? id with
    | none => simp
    | some m => simp
  | some old =>
    cases hnew : newer.module? id with
    | none => simp
    | some m => simp

/-- Nothing differs between a graph and itself. -/
theorem between_self (g : ModuleGraph) : between g g = {} := by
  have hmodified : (between g g).modified = [] := by
    refine List.eq_nil_iff_forall_not_mem.2 ?_
    intro id hid
    obtain ⟨old, m, hold, hnew, hhash⟩ := mem_modified_between.1 hid
    obtain rfl := Option.some.inj (hold.symm.trans hnew)
    exact hhash rfl
  have hadded : (between g g).added = [] := by
    refine List.eq_nil_iff_forall_not_mem.2 ?_
    intro id hid
    obtain ⟨hnone, m, hsome⟩ := mem_added_between.1 hid
    rw [hnone] at hsome
    cases hsome
  have hremoved : (between g g).removed = [] := by
    refine List.eq_nil_iff_forall_not_mem.2 ?_
    intro id hid
    obtain ⟨⟨m, hsome⟩, hnone⟩ := mem_removed_between.1 hid
    rw [hnone] at hsome
    cases hsome
  have haffected : (between g g).affected = [] := by
    show g.ancestors ((between g g).modified ++ (between g g).added) = []
    rw [hmodified, hadded]
    refine List.eq_nil_iff_forall_not_mem.2 ?_
    intro id hid
    obtain ⟨c, hc, -⟩ := ModuleGraph.mem_ancestors_iff.1 hid
    cases hc
  show ChangeSet.mk (between g g).modified (between g g).added (between g g).removed
    (between g g).affected = {}
  rw [hmodified, hadded, hremoved, haffected]

end ChangeSet

end Bindery
