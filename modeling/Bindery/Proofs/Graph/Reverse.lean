import Bindery.Proofs.Graph.Snapshot

/-!
# Against the direction of the imports

What a module leads to and what leads to it are found in different ways: the one by following the
imports whose targets are in the graph, the other by following, against their direction, all imports.
Both agree for modules of the graph, since every importer is one: where a module of the graph is
imported over any number of steps, no step on the way leaves the graph.

* `mem_dependents_iff`, `nodup_dependents` : the edges that lead to an id.
* `reflTransGen_imports_iff` : a way back from a module of the graph is a way to it.
* `mem_ancestors_iff_mem_fullClosure` : the ancestors of some modules are what leads to one of them.
* `any_fullClosure_iff` : an entry leads to one of them when one of its roots is an ancestor.
* `Reversed`, `reversed_of_subset` : all of this for a graph and some of its modules.
-/

namespace Bindery

/-- Keeping the first occurrence of everything leaves nothing twice. -/
theorem nodup_eraseDups {α : Type} [BEq α] [LawfulBEq α] (l : List α) : l.eraseDups.Nodup := by
  -- what is kept behind a member is what differs from it, so the induction is on the length
  induction hlength : l.length using Nat.strongRecOn generalizing l with
  | _ n ih =>
    cases l with
    | nil => exact List.nodup_nil
    | cons a r =>
      rw [List.eraseDups_cons, List.nodup_cons]
      constructor
      · intro hmem
        rw [List.mem_eraseDups, List.mem_filter] at hmem
        simp at hmem
      · have hshorter : (r.filter fun b => !b == a).length ≤ r.length := List.length_filter_le _ _
        rw [List.length_cons] at hlength
        exact ih _ (by omega) _ rfl

namespace ModuleGraph

variable {g : ModuleGraph} {changed roots : List ModuleId} {a b x y : ModuleId}

/-! ## Edges -/

/-- The edges that lead to an id are the imports that mean it. -/
theorem mem_dependents_iff {kind : ImportKind} : { importer := x, kind } ∈ g.dependents y ↔
    ∃ m ∈ g.modules, m.id = x ∧ ∃ i ∈ m.imports, i.resolved = some y ∧ i.kind = kind := by
  simp only [mem_dependents, Module.mem_dependencies_iff]

theorem nodup_dependents (g : ModuleGraph) (y : ModuleId) : (g.dependents y).Nodup :=
  nodup_eraseDups _

theorem contains_of_imports (h : g.Imports a b) : g.contains a = true := by
  obtain ⟨m, hm, rfl, -⟩ := h
  exact contains_iff.2 (List.mem_map_of_mem hm)

/-- An import of a module that is in the graph is an edge of the graph. -/
theorem imports_iff_leads (hb : g.contains b = true) :
    g.Imports a b ↔ g.Leads (fun _ => true) a b := by
  constructor
  · rintro ⟨m, hm, hid, hmem⟩
    obtain ⟨d, hd, rfl⟩ := List.mem_map.1 hmem
    exact ⟨d, mem_dependencies_iff.2 ⟨m, hm, hid, hd, hb⟩, rfl, rfl⟩
  · rintro ⟨d, hd, -, rfl⟩
    obtain ⟨m, hm, hid, hmem, -⟩ := mem_dependencies_iff.1 hd
    exact ⟨m, hm, hid, List.mem_map_of_mem hmem⟩

/-! ## Ways -/

/-- A way back from a module of the graph is a way to it, and it starts in the graph. -/
theorem reflTransGen_imports_iff (hb : g.contains b = true) :
    Relation.ReflTransGen (fun y x => g.Imports x y) b a ↔
      g.contains a = true ∧ Relation.ReflTransGen (g.Leads fun _ => true) a b := by
  constructor
  · intro h
    -- every step back comes to an importer, so the way stays in the graph
    induction h with
    | refl => exact ⟨hb, .refl⟩
    | tail _ himports ih =>
      obtain ⟨hcontains, hpath⟩ := ih
      exact ⟨contains_of_imports himports, .head ((imports_iff_leads hcontains).1 himports) hpath⟩
  · rintro ⟨-, h⟩
    induction h using Relation.ReflTransGen.head_induction_on with
    | refl => exact .refl
    | head hstep _ ih =>
      obtain ⟨d, hd, -, rfl⟩ := id hstep
      have hcontains : g.contains d.1 = true := contains_of_mem_dependencies hd
      exact ih.tail ((imports_iff_leads hcontains).2 hstep)

/-- The ancestors of some modules of a graph are the modules from which one of them can be loaded. -/
theorem mem_ancestors_iff_mem_fullClosure (h : changed ⊆ g.ids) :
    x ∈ g.ancestors changed ↔ x ∈ g.ids ∧ ∃ s ∈ changed, s ∈ g.fullClosure [x] := by
  have hback : x ∈ g.ancestors changed ↔
      ∃ s ∈ changed, g.contains x = true ∧ Relation.ReflTransGen (g.Leads fun _ => true) x s := by
    rw [mem_ancestors_iff]
    apply exists_congr
    intro s
    apply and_congr_right
    intro hs
    exact reflTransGen_imports_iff (contains_iff.2 (h hs))
  rw [hback, ← contains_iff]
  constructor
  · rintro ⟨s, hs, hx, hpath⟩
    exact ⟨hx, s, hs, mem_fullClosure_iff.2 ⟨x, List.mem_singleton_self x, hx, hpath⟩⟩
  · rintro ⟨hx, s, hs, hmem⟩
    obtain ⟨r, hr, -, hpath⟩ := mem_fullClosure_iff.1 hmem
    obtain rfl := List.mem_singleton.1 hr
    exact ⟨s, hs, hx, hpath⟩

/-- Some of the modules can be loaded from some roots when a root in the graph is an ancestor of
them. -/
theorem any_fullClosure_iff (h : changed ⊆ g.ids) :
    (g.fullClosure roots).any changed.contains = true ↔
      ∃ r ∈ roots, r ∈ g.ids ∧ r ∈ g.ancestors changed := by
  rw [List.any_eq_true]
  constructor
  · rintro ⟨s, hmem, hs⟩
    obtain ⟨r, hr, hcontains, hpath⟩ := mem_fullClosure_iff.1 hmem
    have hown : s ∈ g.fullClosure [r] :=
      mem_fullClosure_iff.2 ⟨r, List.mem_singleton_self r, hcontains, hpath⟩
    have hid : r ∈ g.ids := contains_iff.1 hcontains
    exact ⟨r, hr, hid, (mem_ancestors_iff_mem_fullClosure h).2
      ⟨hid, s, List.contains_iff_mem.1 hs, hown⟩⟩
  · rintro ⟨r, hr, hid, hancestor⟩
    obtain ⟨-, s, hs, hown⟩ := (mem_ancestors_iff_mem_fullClosure h).1 hancestor
    obtain ⟨r', hr', -, hpath⟩ := mem_fullClosure_iff.1 hown
    obtain rfl := List.mem_singleton.1 hr'
    exact ⟨s, mem_fullClosure_iff.2 ⟨r', hr, contains_iff.2 hid, hpath⟩, List.contains_iff_mem.2 hs⟩

/-! ## A graph and some of its modules -/

/-- What is found against the direction of the imports is what is found in their direction. -/
structure Reversed (g : ModuleGraph) (changed : List ModuleId) : Prop where
  /-- An edge leads to an id for every import that means it. -/
  dependents : ∀ y x kind, { importer := x, kind } ∈ g.dependents y ↔
    ∃ m ∈ g.modules, m.id = x ∧ ∃ i ∈ m.imports, i.resolved = some y ∧ i.kind = kind
  /-- And it is there once. -/
  nodup : ∀ y, (g.dependents y).Nodup
  ancestors : ∀ x, x ∈ g.ancestors changed ↔
    x ∈ g.ids ∧ ∃ s ∈ changed, s ∈ g.fullClosure [x]
  /-- The entries that lead to one of the modules, in order of declaration. -/
  entries : g.entriesContaining changed = (g.entries.filter fun e =>
    decide (∃ r ∈ e.2, r ∈ g.ids ∧ r ∈ g.ancestors changed)).map (·.1)

/-- Reverse edges, ancestors and the entries above some modules agree with what the modules lead to:
for every graph and all modules of it. -/
theorem reversed_of_subset (g : ModuleGraph) (changed : List ModuleId) (h : changed ⊆ g.ids) :
    Reversed g changed := by
  constructor
  case dependents => exact fun y x kind => mem_dependents_iff
  case nodup => exact nodup_dependents g
  case ancestors => exact fun x => mem_ancestors_iff_mem_fullClosure h
  case entries =>
    unfold entriesContaining
    congr 1
    apply List.filter_congr
    intro e _
    rw [Bool.eq_iff_iff, any_fullClosure_iff h, decide_eq_true_iff]

/-- Modules that lead back to themselves, imports of one module in two ways, and imports of a module
that is not there. -/
def knot : ModuleGraph :=
  .ofModules [("main", [⟨"a.js"⟩]), ("lost", [⟨"gone.js"⟩]), ("both", [⟨"gone.js"⟩, ⟨"b.js"⟩]),
      ("other", [⟨"d.js"⟩])]
    [.draft "a.js" ""
        [⟨"./b", .static, some ⟨"b.js"⟩⟩, ⟨"./b", .dynamic, some ⟨"b.js"⟩⟩,
          ⟨"./b.js", .static, some ⟨"b.js"⟩⟩, ⟨"./gone", .static, some ⟨"gone.js"⟩⟩],
      .draft "b.js" "" [⟨"./c", .reExport, some ⟨"c.js"⟩⟩, ⟨"./a", .static, some ⟨"a.js"⟩⟩],
      .draft "c.js" "" [⟨"./nothing", .static, none⟩],
      .draft "d.js" "" [⟨"./d", .static, some ⟨"d.js"⟩⟩, ⟨"./gone", .static, some ⟨"gone.js"⟩⟩]]

/-- Two entries lead to the third module, and neither of the others does. -/
theorem reversed_of_subset_knot :
    [⟨"c.js"⟩] ⊆ knot.ids ∧
      knot.dependents ⟨"b.js"⟩ = [⟨⟨"a.js"⟩, .static⟩, ⟨⟨"a.js"⟩, .dynamic⟩] ∧
      knot.ancestors [⟨"c.js"⟩] = [⟨"a.js"⟩, ⟨"b.js"⟩, ⟨"c.js"⟩] ∧
      knot.entriesContaining [⟨"c.js"⟩] = ["main", "both"] ∧ Reversed knot [⟨"c.js"⟩] := by
  have hids : [⟨"c.js"⟩] ⊆ knot.ids := by decide
  exact ⟨hids, by decide, by decide, by decide,
    reversed_of_subset knot _ hids⟩

end ModuleGraph

end Bindery
