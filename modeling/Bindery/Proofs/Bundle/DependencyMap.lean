import Bindery.Proofs.Bundle.ChunkText

/-!
# What a dependency map says

A dependency map is an object with its keys in order, each of them once. For a specifier it holds the
target of the last import of that specifier that has one.

* `Json.lookup_sortMembers`, `Json.inOrder_sortMembers` : objects whose members are sorted.
* `ChunkText.meaning?` : what a specifier means in a module.
* `ChunkText.tells_dependencyMap` : dependency maps hold that, and nothing else.
-/

namespace Bindery

namespace Json

variable {key : String} {value : Json} {members done : List (String × Json)}

/-- The keys are in order, and each is there once. -/
def InOrder (members : List (String × Json)) : Prop := members.Pairwise fun a b => a.1 < b.1

theorem lookup_cons_eq_ite (m : String × Json) (r : List (String × Json)) (other : String) :
    (m :: r).lookup other = if other = m.1 then some m.2 else r.lookup other := by
  rw [List.lookup_cons]
  split
  · next h => rw [if_pos (eq_of_beq h)]
  · next h => rw [if_neg (beq_eq_false_iff_ne.1 h)]

theorem lookup_insertKey (key : String) (value : Json) (members : List (String × Json))
    (other : String) : (insertKey key value members).lookup other =
      if other = key then some value else members.lookup other := by
  induction members with
  | nil => exact lookup_cons_eq_ite (key, value) [] other
  | cons m r ih =>
    unfold insertKey
    split
    · exact lookup_cons_eq_ite (key, value) (m :: r) other
    · split
      · next hsame =>
        rw [lookup_cons_eq_ite, lookup_cons_eq_ite m, hsame]
        by_cases h : other = m.1
        · rw [if_pos h, if_pos h]
        · rw [if_neg h, if_neg h, if_neg h]
      · next hother =>
        rw [lookup_cons_eq_ite, lookup_cons_eq_ite m, ih]
        by_cases h : other = m.1
        · have hne : other ≠ key := fun heq => hother (heq.symm.trans h)
          rw [if_pos h, if_neg hne, if_pos h]
        · rw [if_neg h, if_neg h]

/-- Of equal keys the last counts, and those that are there already come before all. -/
theorem lookup_sortMembers (done members : List (String × Json)) (other : String) :
    (sortMembers done members).lookup other =
      ((members.map fun m => (m.1, m.2.sortKeys)).reverse.lookup other).or (done.lookup other) := by
  induction members generalizing done with
  | nil => simp [sortMembers]
  | cons m r ih =>
    have hone := lookup_cons_eq_ite (m.1, m.2.sortKeys) [] other
    rw [sortMembers, ih, lookup_insertKey, List.map_cons, List.reverse_cons, List.lookup_append, hone,
      Option.or_assoc]
    congr 1
    split <;> rfl

theorem inOrder_insertKey (h : InOrder members) (key : String) (value : Json) :
    InOrder (insertKey key value members) := by
  induction members with
  | nil => exact List.pairwise_singleton _ _
  | cons m r ih =>
    obtain ⟨hfirst, hr⟩ := List.pairwise_cons.1 h
    unfold insertKey
    split
    · next hlt =>
      refine List.pairwise_cons.2 ⟨?_, h⟩
      intro x hx
      rcases List.mem_cons.1 hx with rfl | hx
      · exact hlt
      · exact String.lt_trans hlt (hfirst x hx)
    · next hlt =>
      split
      · next hsame => exact List.pairwise_cons.2 ⟨fun x hx => hsame ▸ hfirst x hx, hr⟩
      · next hne =>
        refine List.pairwise_cons.2 ⟨?_, ih hr⟩
        intro x hx
        rcases mem_insertKey hx with rfl | hx
        · exact Std.lt_of_le_of_ne (String.not_lt.1 hlt) (Ne.symm hne)
        · exact hfirst x hx

theorem inOrder_sortMembers (h : InOrder done) (members : List (String × Json)) :
    InOrder (sortMembers done members) := by
  induction members generalizing done with
  | nil => simpa only [sortMembers] using h
  | cons m r ih =>
    rw [sortMembers]
    exact ih (inOrder_insertKey h _ _)

end Json

namespace ChunkText

/-- What a specifier means in a module: the target of its last import that has one. -/
def meaning? (g : ModuleGraph) (id : ModuleId) (specifier : String) : Option ModuleId :=
  (((g.module? id).map Module.imports).getD []).reverse.findSome? fun i =>
    if i.specifier = specifier then i.resolved else none

/-- The object says for each specifier what it means in a module, and says it once. -/
def Tells (g : ModuleGraph) (id : ModuleId) (map : Json) : Prop :=
  ∃ members, map = .obj members ∧ Json.InOrder members ∧
    ∀ specifier, members.lookup specifier = (meaning? g id specifier).map fun t => .str t.text

/-- The first import of a specifier that has a target. -/
theorem lookup_targets (imports : List Import) (specifier : String) :
    (imports.filterMap fun i => i.resolved.map fun t => (i.specifier, Json.str t.text)).lookup
        specifier =
      (imports.findSome? fun i => if i.specifier = specifier then i.resolved else none).map
        fun t => .str t.text := by
  induction imports with
  | nil => rfl
  | cons i r ih =>
    cases hresolved : i.resolved with
    | none => simpa [hresolved] using ih
    | some t =>
      by_cases h : i.specifier = specifier
      · simp [hresolved, h]
      · have hne : specifier ≠ i.specifier := Ne.symm h
        simpa [hresolved, Json.lookup_cons_eq_ite, h, hne] using ih

theorem tells_dependencyMap (g : ModuleGraph) (id : ModuleId) : Tells g id (dependencyMap g id) := by
  refine ⟨_, rfl, Json.inOrder_sortMembers List.Pairwise.nil _, ?_⟩
  intro specifier
  have hsorted : ∀ imports : List Import,
      ((imports.filterMap fun i => i.resolved.map fun t => (i.specifier, Json.str t.text)).map
        fun m => (m.1, m.2.sortKeys)) =
      imports.filterMap fun i => i.resolved.map fun t => (i.specifier, Json.str t.text) := by
    intro imports
    simp [List.map_filterMap, Function.comp_def, Json.sortKeys]
  rw [Json.lookup_sortMembers, hsorted, ← List.filterMap_reverse, lookup_targets, meaning?]
  exact Option.or_none

end ChunkText

end Bindery
