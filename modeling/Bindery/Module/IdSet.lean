import Bindery.Module.Id

/-!
# Sets of module ids

A set of ids is the list of its members in order, each once.
-/

namespace Bindery

/-- Ids in order, each once. -/
abbrev IdSet := List ModuleId

namespace IdSet

/-- Adds a member. -/
def insert (id : ModuleId) : IdSet → IdSet
  | [] => [id]
  | x :: r => if id = x then x :: r else if id < x then id :: x :: r else x :: insert id r

/-- Removes a member. -/
def remove (id : ModuleId) (s : IdSet) : IdSet := s.filter (· != id)

/-- Adds all members of a list. -/
def insertAll (ids : List ModuleId) (s : IdSet) : IdSet := ids.foldl (fun s id => insert id s) s

/-- The set of the members of a list. -/
def ofList (ids : List ModuleId) : IdSet := insertAll ids []

theorem mem_insert {id x : ModuleId} {s : IdSet} : x ∈ insert id s ↔ x = id ∨ x ∈ s := by
  induction s with
  | nil => simp [insert]
  | cons y r ih =>
    unfold insert
    split
    · next h => subst h; simp
    · split
      · simp
      · simp only [List.mem_cons, ih]
        constructor
        · rintro (h | h | h) <;> simp [h]
        · rintro (h | h | h) <;> simp [h]

theorem mem_remove {id x : ModuleId} {s : IdSet} : x ∈ remove id s ↔ x ∈ s ∧ x ≠ id := by
  simp [remove]

theorem mem_insertAll {x : ModuleId} {ids : List ModuleId} {s : IdSet} :
    x ∈ insertAll ids s ↔ x ∈ ids ∨ x ∈ s := by
  induction ids generalizing s with
  | nil => simp [insertAll]
  | cons id r ih =>
    have hcons : insertAll (id :: r) s = insertAll r (insert id s) := rfl
    rw [hcons, ih, mem_insert, List.mem_cons]
    constructor
    · rintro (h | h | h) <;> simp [h]
    · rintro ((h | h) | h) <;> simp [h]

theorem mem_ofList {x : ModuleId} {ids : List ModuleId} : x ∈ ofList ids ↔ x ∈ ids := by
  simp [ofList, mem_insertAll]

theorem insertAll_eq_nil {ids : List ModuleId} {s : IdSet} :
    insertAll ids s = [] ↔ ids = [] ∧ s = [] := by
  simp only [List.eq_nil_iff_forall_not_mem, mem_insertAll, not_or, forall_and]

end IdSet

end Bindery
