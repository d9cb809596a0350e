import Mathlib.Data.List.Perm.Basic
import Bindery.Proofs.Graph.Closure

/-!
# Snapshots of modules in any order

A graph keeps its modules in order of their ids, so which graph it is depends only on which modules
there are, never on the order in which they came.

* `ModuleGraph.modules_ofModules_perm` : a graph of modules with different ids holds just these.
* `ModuleId.eq_of_mem_iff` : ids in order are determined by which they are.
* `ModuleGraph.eq_of_perm` : graphs with the same modules and entries are the same.
* `EntryMap.mem_of_mem_ofList` : what is declared for an entry is one of its declarations.
* `ModuleGraph.module?_eq_some_iff`, `ModuleGraph.mem_dependencies_iff` : what is found for an id.
-/

namespace Bindery

/-- Ids in order are determined by which they are. -/
theorem ModuleId.eq_of_mem_iff {l l' : List ModuleId} (hl : l.Pairwise (· < ·))
    (hl' : l'.Pairwise (· < ·)) (h : ∀ id, id ∈ l ↔ id ∈ l') : l = l' := by
  have hperm : l.Perm l' :=
    (List.perm_ext_iff_of_nodup (hl.imp ne_of_lt) (hl'.imp ne_of_lt)).2 h
  refine hperm.eq_of_pairwise ?_ hl hl'
  intro a b _ _ hab hba
  exact absurd (lt_trans hab hba) (lt_irrefl _)

namespace Module

theorem insertInOrder_perm {m : Module} {l : List Module} (h : m.id ∉ l.map (·.id)) :
    (insertInOrder m l).Perm (m :: l) := by
  induction l with
  | nil => exact .refl _
  | cons x r ih =>
    simp only [List.map_cons, List.mem_cons, not_or] at h
    unfold insertInOrder
    rw [if_neg h.1]
    split
    · exact .refl _
    · exact ((ih h.2).cons x).trans (List.Perm.swap _ _ _)

theorem foldl_insertInOrder_perm {modules l : List Module}
    (h : ((l ++ modules).map (·.id)).Nodup) :
    (modules.foldl (fun done m => m.insertInOrder done) l).Perm (l ++ modules) := by
  induction modules generalizing l with
  | nil => simp
  | cons m r ih =>
    have hnew : m.id ∉ l.map (·.id) := by
      rw [List.map_append, List.nodup_append] at h
      exact fun hm => h.2.2 m.id hm m.id (List.mem_map_of_mem List.mem_cons_self) rfl
    have hperm : (insertInOrder m l ++ r).Perm (l ++ m :: r) :=
      ((insertInOrder_perm hnew).append_right r).trans List.perm_middle.symm
    rw [List.foldl_cons]
    exact (ih ((hperm.map _).nodup_iff.2 h)).trans hperm

/-- Modules in order are determined by which they are. -/
theorem eq_of_perm {l l' : List Module} (h : l.Perm l') (hl : InOrder l) (hl' : InOrder l') :
    l = l' := by
  refine h.eq_of_pairwise ?_ hl hl'
  intro a b _ _ hab hba
  exact absurd (ModuleId.lt_trans hab hba) (ModuleId.lt_irrefl _)

/-- A script of one letter, with a digest by which its versions are told apart. -/
def draft (id hash : String) (imports : List Import) : Module :=
  { id := ⟨id⟩, path := id, kind := .script, source := "x".toUTF8, imports, hash
    hasGlobalState := false, isStub := false }

/-- The edges of a module are its imports that mean something. -/
theorem mem_dependencies_iff {m : Module} {id : ModuleId} {kind : ImportKind} :
    (id, kind) ∈ m.dependencies ↔ ∃ i ∈ m.imports, i.resolved = some id ∧ i.kind = kind := by
  simp only [dependencies, List.mem_filterMap, Option.map_eq_some_iff, Prod.mk.injEq]
  constructor
  · rintro ⟨i, hi, _, hresolved, rfl, hkind⟩
    exact ⟨i, hi, hresolved, hkind⟩
  · rintro ⟨i, hi, hresolved, hkind⟩
    exact ⟨i, hi, id, hresolved, rfl, hkind⟩

end Module

namespace EntryMap

theorem mem_declare {name : String} {value : List α} {m : EntryMap α} {e : String × List α}
    (h : e ∈ m.declare name value) : e = (name, value) ∨ e ∈ m := by
  induction m with
  | nil => exact .inl (List.mem_singleton.1 h)
  | cons x r ih =>
    unfold declare at h
    split at h
    · next hname =>
      rcases List.mem_cons.1 h with h | h
      · exact .inl (hname ▸ h)
      · exact .inr (List.mem_cons_of_mem _ h)
    · rcases List.mem_cons.1 h with h | h
      · exact .inr (h ▸ List.mem_cons_self)
      · exact (ih h).imp_right (List.mem_cons_of_mem _)

/-- What is declared for an entry is one of its declarations. -/
theorem mem_of_mem_ofList {declarations : List (String × List α)} {e : String × List α}
    (h : e ∈ ofList declarations) : e ∈ declarations := by
  -- what has been declared so far is general, for the induction on the declarations that follow
  have hfold : ∀ (declarations : List (String × List α)) (m : EntryMap α),
      e ∈ declarations.foldl (fun m d => declare d.1 d.2 m) m → e ∈ m ∨ e ∈ declarations := by
    intro declarations
    induction declarations with
    | nil => exact fun m h => .inl h
    | cons d r ih =>
      intro m h
      rcases ih _ h with h | h
      · rcases mem_declare h with rfl | h
        · exact .inr List.mem_cons_self
        · exact .inl h
      · exact .inr (List.mem_cons_of_mem _ h)
  exact (hfold declarations [] h).resolve_left List.not_mem_nil

theorem mem_names_declare {name x : String} {value : List α} {m : EntryMap α} :
    x ∈ (m.declare name value).names ↔ x = name ∨ x ∈ m.names := by
  by_cases hname : name ∈ m.names
  · rw [names_declare_of_mem hname]
    constructor
    · exact .inr
    · rintro (rfl | h)
      · exact hname
      · exact h
  · rw [declare_of_notMem hname]
    simp [names, or_comm]

/-- Every entry that is declared is there. -/
theorem mem_names_ofList {declarations : List (String × List α)} {name : String}
    (h : name ∈ declarations.map (·.1)) : name ∈ (ofList declarations).names := by
  have hfold : ∀ (declarations : List (String × List α)) (m : EntryMap α),
      name ∈ m.names ∨ name ∈ declarations.map (·.1) →
        name ∈ (declarations.foldl (fun m d => declare d.1 d.2 m) m).names := by
    intro declarations
    induction declarations with
    | nil => simp
    | cons d r ih =>
      intro m h
      refine ih _ ?_
      rw [mem_names_declare]
      rw [List.map_cons, List.mem_cons] at h
      tauto
  exact hfold declarations [] (.inr h)

end EntryMap

namespace ModuleGraph

/-- A graph of modules with different ids holds just these. -/
theorem modules_ofModules_perm (entries : EntryMap ModuleId) {modules : List Module}
    (h : (modules.map (·.id)).Nodup) : (ofModules entries modules).modules.Perm modules :=
  Module.foldl_insertInOrder_perm (l := []) h

/-- Graphs with the same modules and entries are the same. -/
theorem eq_of_perm {g g' : ModuleGraph} (hmodules : g.modules.Perm g'.modules)
    (hentries : g.entries = g'.entries) : g = g' := by
  have heq := Module.eq_of_perm hmodules g.inOrder g'.inOrder
  cases g
  cases g'
  simp only at heq hentries
  simp only [heq, hentries]

/-- A graph has one module for an id. -/
theorem eq_of_id_eq {g : ModuleGraph} {m m' : Module} (hm : m ∈ g.modules) (hm' : m' ∈ g.modules)
    (hid : m.id = m'.id) : m = m' :=
  List.inj_on_of_nodup_map g.nodup_ids hm hm' hid

/-! ## Looking modules up -/

variable {g : ModuleGraph} {id : ModuleId}

theorem mem_of_module? {m : Module} (h : g.module? id = some m) : m ∈ g.modules ∧ m.id = id := by
  have hid := List.find?_some h
  exact ⟨List.mem_of_find?_eq_some h, of_decide_eq_true hid⟩

theorem module?_eq_none_iff : g.module? id = none ↔ g.contains id = false := by
  simp [module?, contains]

theorem exists_module?_iff : (∃ m, g.module? id = some m) ↔ g.contains id = true := by
  rw [← Option.isSome_iff_exists, Option.isSome_iff_ne_none, ne_eq, module?_eq_none_iff,
    Bool.not_eq_false]

theorem module?_eq_some_iff {m : Module} : g.module? id = some m ↔ m ∈ g.modules ∧ m.id = id := by
  constructor
  · exact mem_of_module?
  · rintro ⟨hm, rfl⟩
    have hcontains : g.contains m.id = true := List.any_eq_true.2 ⟨m, hm, decide_eq_true rfl⟩
    obtain ⟨m', hfind⟩ := exists_module?_iff.2 hcontains
    obtain ⟨hm', hid⟩ := mem_of_module? hfind
    rw [hfind, eq_of_id_eq hm' hm hid]

theorem mem_dependencies_iff {d : ModuleId × ImportKind} :
    d ∈ g.dependencies id ↔ ∃ m ∈ g.modules, m.id = id ∧ d ∈ m.dependencies ∧
      g.contains d.1 = true := by
  unfold dependencies
  constructor
  · intro h
    split at h
    · next m hm =>
      obtain ⟨hmem, hid⟩ := mem_of_module? hm
      obtain ⟨hd, hcontains⟩ := List.mem_filter.1 h
      exact ⟨m, hmem, hid, hd, hcontains⟩
    · exact absurd h List.not_mem_nil
  · rintro ⟨m, hm, hid, hd, hcontains⟩
    rw [module?_eq_some_iff.2 ⟨hm, hid⟩]
    exact List.mem_filter.2 ⟨hd, hcontains⟩

end ModuleGraph

end Bindery
