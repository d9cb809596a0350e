import Mathlib.Data.List.Forall2
import Bindery.Proofs.Graph.Closure

/-!
# The outline of a graph

The outline of a graph says which modules there are and where their imports lead, and nothing of what
the modules hold. Everything that is found by following links can be read off it, so graphs with the
same outline and the same entries have the same closures.

* `SameLinks` : graphs that differ only in what their modules hold.
* `SameLinks.staticClosure`, `SameLinks.fullClosure` : they have the same closures.
* `SameBut` : graphs that differ only in one module, whose imports lead to the same targets.
-/

namespace Bindery

namespace ModuleGraph

/-- The modules of a graph with the targets of their imports. -/
def outline (g : ModuleGraph) : List (ModuleId × List (ModuleId × ImportKind)) :=
  g.modules.map fun m => (m.id, m.dependencies)

section Outline

variable (g : ModuleGraph) (id : ModuleId)

theorem ids_eq_outline : g.ids = g.outline.map (·.1) := by
  simp [ids, outline]

theorem contains_eq_outline : g.contains id = g.outline.any fun x => x.1 = id := by
  simp [contains, outline, Function.comp_def]

theorem dependencies_eq_outline : g.dependencies id =
    (((g.outline.find? fun x => x.1 = id).map (·.2)).getD []).filter fun d => g.contains d.1 := by
  have hfind : (g.outline.find? fun x => x.1 = id) =
      (g.module? id).map fun m => (m.id, m.dependencies) := by
    simp [outline, module?, List.find?_map, Function.comp_def]
  rw [hfind]
  unfold dependencies
  cases g.module? id with
  | none => rfl
  | some m => rfl

theorem dependents_eq_outline : g.dependents id =
    (g.outline.flatMap fun x => x.2.filterMap fun d =>
      if d.1 = id then some { importer := x.1, kind := d.2 : Dependent } else none).eraseDups := by
  simp [dependents, outline, List.flatMap_map]

theorem dynamicTargets_eq_outline : g.dynamicTargets =
    fresh [] (g.outline.flatMap fun x => x.2.filterMap fun d =>
      if d.2 = .dynamic && g.contains d.1 then some d.1 else none) := by
  simp [dynamicTargets, outline, List.flatMap_map]

end Outline

/-- Graphs with the same entries and the same outline. -/
structure SameLinks (g g' : ModuleGraph) : Prop where
  entries : g.entries = g'.entries
  outline : g.outline = g'.outline

namespace SameLinks

variable {g g' : ModuleGraph} (h : g.SameLinks g')
include h

theorem ids : g.ids = g'.ids := by
  rw [ids_eq_outline, ids_eq_outline, h.outline]

theorem contains : g.contains = g'.contains := by
  funext id
  rw [contains_eq_outline, contains_eq_outline, h.outline]

theorem dependencies : g.dependencies = g'.dependencies := by
  funext id
  rw [dependencies_eq_outline, dependencies_eq_outline, h.outline, h.contains]

theorem dependents : g.dependents = g'.dependents := by
  funext id
  rw [dependents_eq_outline, dependents_eq_outline, h.outline]

theorem dynamicTargets : g.dynamicTargets = g'.dynamicTargets := by
  rw [dynamicTargets_eq_outline, dynamicTargets_eq_outline, h.outline, h.contains]

theorem closure (follow : ImportKind → Bool) : g.closure follow = g'.closure follow := by
  have hlength : g.modules.length = g'.modules.length := by
    simpa [ModuleGraph.outline] using congrArg List.length h.outline
  funext roots
  simp only [ModuleGraph.closure, h.contains, h.dependencies, hlength]

theorem staticClosure : g.staticClosure = g'.staticClosure := h.closure _

theorem fullClosure : g.fullClosure = g'.fullClosure := h.closure fun _ => true

end SameLinks

/-! ## Graphs that differ in one module -/

/-- Graphs that differ only in one module. It keeps its id, and its imports keep their targets. -/
structure SameBut (x : ModuleId) (g g' : ModuleGraph) : Prop where
  entries : g.entries = g'.entries
  modules : List.Forall₂ (fun m m' =>
    m = m' ∨ m.id = x ∧ m'.id = x ∧ m.dependencies = m'.dependencies) g.modules g'.modules

namespace SameBut

variable {x id : ModuleId} {g g' : ModuleGraph}

theorem sameLinks (h : g.SameBut x g') : g.SameLinks g' where
  entries := h.entries
  outline := by
    have hall : List.Forall₂ (· = ·) g.outline g'.outline := by
      rw [ModuleGraph.outline, ModuleGraph.outline, List.forall₂_map_left_iff,
        List.forall₂_map_right_iff]
      refine h.modules.imp ?_
      rintro m m' (rfl | ⟨hm, hm', hsame⟩)
      · rfl
      · rw [hm, hm', hsame]
    rwa [List.forall₂_eq_eq_eq] at hall

/-- Every other module is the same. -/
theorem module?_of_ne (h : g.SameBut x g') (hid : id ≠ x) : g.module? id = g'.module? id := by
  have hfind : ∀ {l l' : List Module}, List.Forall₂ (fun m m' : Module =>
      m = m' ∨ m.id = x ∧ m'.id = x ∧ m.dependencies = m'.dependencies) l l' →
      l.find? (·.id = id) = l'.find? (·.id = id) := by
    intro l l' hall
    induction hall with
    | nil => rfl
    | cons hfirst _ ih =>
      rcases hfirst with rfl | ⟨hm, hm', -⟩
      · rw [List.find?_cons, List.find?_cons, ih]
      · rw [List.find?_cons_of_neg, List.find?_cons_of_neg, ih]
        · simpa [hm'] using Ne.symm hid
        · simpa [hm] using Ne.symm hid
  exact hfind h.modules

end SameBut

/-- Replaces the source of a module, whose imports stay as they are. -/
def edit (g : ModuleGraph) (x : ModuleId) (source : ByteArray) : ModuleGraph :=
  { g with
    modules := g.modules.map fun m =>
      if m.id = x then { m with source, hash := Digest.blake3 source } else m
    inOrder := by
      refine List.pairwise_map.2 (g.inOrder.imp ?_)
      intro a b hab
      split <;> split <;> exact hab }

theorem sameBut_edit (g : ModuleGraph) (x : ModuleId) (source : ByteArray) :
    g.SameBut x (g.edit x source) where
  entries := rfl
  modules := by
    rw [edit, List.forall₂_map_right_iff, List.forall₂_same]
    intro m _
    split
    · next hm => exact .inr ⟨hm, hm, rfl⟩
    · exact .inl rfl

end ModuleGraph

end Bindery
