import Mathlib.Data.List.Sort
import Mathlib.Order.WellFoundedSet
import Bindery.Proofs.Bundle.ChunkName
import Bindery.Proofs.Graph.Change

/-!
# Boundaries

Code that no entry loads at its start is loaded on demand, and that begins at boundaries. Every
target of a dynamic import is one; then each module becomes one that is loaded with none of the
boundaries before it. So the boundaries of a graph are determined by where its imports lead, and
what lies behind a boundary is what is loaded together with it.

* `ModuleGraph.mem_dynamicTargets_iff` : the targets of dynamic imports.
* `Split.IsBoundaries` : which modules are boundaries, and in what order.
* `Split.eq_of_isBoundaries` : no two lists are the boundaries of a graph.
* `Split.exists_isBoundaries` : the boundaries of a plan are those of the graph.
* `Split.nodup_names_boundaries` : boundaries have names of their own.
-/

namespace Bindery

namespace ModuleGraph

variable {g : ModuleGraph} {id : ModuleId}

/-- Some dynamic import of the graph leads to a module of the graph. -/
def IsDynamicTarget (g : ModuleGraph) (id : ModuleId) : Prop :=
  ∃ importer, g.Leads (fun kind => kind = .dynamic) importer id

theorem mem_dynamicTargets_iff : id ∈ g.dynamicTargets ↔ g.IsDynamicTarget id := by
  simp only [dynamicTargets, mem_fresh, List.mem_flatMap, List.mem_filterMap, List.not_mem_nil,
    not_false_eq_true, and_true]
  constructor
  · rintro ⟨m, hm, d, hd, htarget⟩
    split at htarget
    · next hdynamic =>
      obtain rfl := Option.some.inj htarget
      rw [Bool.and_eq_true] at hdynamic
      exact ⟨m.id, d, mem_dependencies_iff.2 ⟨m, hm, rfl, hd, hdynamic.2⟩, hdynamic.1, rfl⟩
    · cases htarget
  · rintro ⟨importer, d, hd, hdynamic, rfl⟩
    obtain ⟨m, hm, -, hmem, hcontains⟩ := mem_dependencies_iff.1 hd
    refine ⟨m, hm, d, hmem, if_pos ?_⟩
    rw [Bool.and_eq_true]
    exact ⟨hdynamic, hcontains⟩

/-- Some entry loads a module at its start. -/
def LoadedAtStart (g : ModuleGraph) (id : ModuleId) : Prop := ∃ e ∈ g.entries, g.Loads e.2 id

end ModuleGraph

namespace Split

variable {g : ModuleGraph} {assets : List ModuleId} {groups : List ChunkGroup} {id : ModuleId}

/-- Code that no entry loads at its start. -/
def OnDemand (g : ModuleGraph) (assets : List ModuleId) (id : ModuleId) : Prop :=
  id ∈ code g assets ∧ ¬g.LoadedAtStart id

/-- The modules at which loading on demand begins: the targets of dynamic imports in order, then, in
order, what is loaded with none of the boundaries before it. -/
structure IsBoundaries (g : ModuleGraph) (assets targets rest : List ModuleId) : Prop where
  ordered_targets : targets.Pairwise (· < ·)
  mem_targets : ∀ x, x ∈ targets ↔ OnDemand g assets x ∧ g.IsDynamicTarget x
  ordered_rest : rest.Pairwise (· < ·)
  mem_rest : ∀ x, x ∈ rest ↔
    OnDemand g assets x ∧ ∀ b, (b ∈ targets ∨ b ∈ rest ∧ b < x) → ¬g.Loads [b] x

/-- The boundaries of a graph are determined by where its imports lead. -/
theorem eq_of_isBoundaries {targets rest targets' rest' : List ModuleId}
    (h : IsBoundaries g assets targets rest) (h' : IsBoundaries g assets targets' rest') :
    targets = targets' ∧ rest = rest' := by
  have htargets : targets = targets' := by
    apply ModuleId.eq_of_mem_iff h.ordered_targets h'.ordered_targets
    intro x
    rw [h.mem_targets, h'.mem_targets]
  subst htargets
  refine ⟨rfl, ModuleId.eq_of_mem_iff h.ordered_rest h'.ordered_rest ?_⟩
  have hids : ∀ x, OnDemand g assets x → x ∈ g.ids :=
    fun x hx => (List.mem_filter.1 hx.1).1
  -- whether a module is a boundary depends on smaller ids of the graph only
  have hstrict : IsStrictOrder ModuleId (· < ·) :=
    { irrefl := ModuleId.lt_irrefl, trans := fun _ _ _ => ModuleId.lt_trans }
  have hwf : {x | x ∈ g.ids}.WellFoundedOn (· < ·) := (List.finite_toSet g.ids).wellFoundedOn
  have hsame : ∀ x ∈ {x | x ∈ g.ids}, x ∈ rest ↔ x ∈ rest' := by
    intro x hx
    refine hwf.induction (P := fun x => x ∈ rest ↔ x ∈ rest') hx ?_
    intro x _ ih
    have hsmaller : ∀ b, b < x → (b ∈ rest ↔ b ∈ rest') := by
      intro b hb
      constructor
      · intro hmem
        exact (ih b (hids b ((h.mem_rest b).1 hmem).1) hb).1 hmem
      · intro hmem
        exact (ih b (hids b ((h'.mem_rest b).1 hmem).1) hb).2 hmem
    have hbefore : ∀ b, (b ∈ targets ∨ b ∈ rest ∧ b < x) ↔ (b ∈ targets ∨ b ∈ rest' ∧ b < x) :=
      fun b => or_congr_right (and_congr_left (hsmaller b))
    rw [h.mem_rest, h'.mem_rest]
    simp only [hbefore]
  intro x
  constructor
  · intro hmem
    exact (hsame x (hids x ((h.mem_rest x).1 hmem).1)).1 hmem
  · intro hmem
    exact (hsame x (hids x ((h'.mem_rest x).1 hmem).1)).2 hmem

/-! ## The modules that boundaries are at -/

/-- Takes a module for a boundary unless it is loaded with one of those before it. -/
def addRoot (g : ModuleGraph) (found : List ModuleId) (root : ModuleId) : List ModuleId :=
  if found.any fun r => (g.staticClosure [r]).contains root then found else found ++ [root]

theorem any_staticClosure_iff {found : List ModuleId} {root : ModuleId} :
    (found.any fun r => (g.staticClosure [r]).contains root) = true ↔
      ∃ b ∈ found, g.Loads [b] root := by
  simp only [List.any_eq_true, List.contains_iff_mem, ModuleGraph.mem_staticClosure_iff]

/-- Going through modules in order adds those that are loaded with none of the boundaries before
them. -/
theorem foldl_addRoot_spec (g : ModuleGraph) (found : List ModuleId) {ids : List ModuleId}
    (hord : ids.Pairwise (· < ·)) :
    ∃ rest, ids.foldl (addRoot g) found = found ++ rest ∧ rest.Sublist ids ∧
      ∀ x, x ∈ rest ↔ x ∈ ids ∧ ∀ b, (b ∈ found ∨ b ∈ rest ∧ b < x) → ¬g.Loads [b] x := by
  induction ids using List.reverseRecOn with
  | nil => exact ⟨[], by simp⟩
  | append_singleton ids y ih =>
    obtain ⟨hids, -, hlast⟩ := List.pairwise_append.1 hord
    obtain ⟨rest, hfold, hsub, hmem⟩ := ih hids
    have hless : ∀ x ∈ ids, x < y := fun x hx => hlast x hx y (List.mem_singleton_self y)
    rw [List.foldl_append, hfold, List.foldl_cons, List.foldl_nil, addRoot]
    split
    · next hany =>
      obtain ⟨b, hb, hloads⟩ := any_staticClosure_iff.1 hany
      refine ⟨rest, rfl, hsub.trans (List.sublist_append_left ids [y]), ?_⟩
      intro x
      rw [hmem, List.mem_append, List.mem_singleton]
      constructor
      · rintro ⟨hx, hfree⟩
        exact ⟨.inl hx, hfree⟩
      · rintro ⟨hx | rfl, hfree⟩
        · exact ⟨hx, hfree⟩
        · -- the module that is left out is loaded with an earlier boundary
          refine absurd hloads (hfree b ?_)
          rcases List.mem_append.1 hb with hb | hb
          · exact .inl hb
          · exact .inr ⟨hb, hless b (hsub.subset hb)⟩
    · next hnone =>
      have hfree : ∀ b ∈ found ++ rest, ¬g.Loads [b] y := by
        intro b hb hloads
        exact hnone (any_staticClosure_iff.2 ⟨b, hb, hloads⟩)
      refine ⟨rest ++ [y], by rw [List.append_assoc], hsub.append (List.Sublist.refl _), ?_⟩
      intro x
      simp only [List.mem_append, List.mem_singleton]
      constructor
      · rintro (hx | rfl)
        · obtain ⟨hxids, hfreex⟩ := (hmem x).1 hx
          refine ⟨.inl hxids, ?_⟩
          rintro b (hb | ⟨hb | rfl, hbx⟩)
          · exact hfreex b (.inl hb)
          · exact hfreex b (.inr ⟨hb, hbx⟩)
          · -- the new boundary comes behind all others
            exact absurd (ModuleId.lt_trans hbx (hless x hxids)) (ModuleId.lt_irrefl _)
        · refine ⟨.inr rfl, ?_⟩
          rintro b (hb | ⟨hb | rfl, hbx⟩)
          · exact hfree b (List.mem_append_left _ hb)
          · exact hfree b (List.mem_append_right _ hb)
          · exact absurd hbx (ModuleId.lt_irrefl _)
      · rintro ⟨hx | rfl, hfreex⟩
        · refine .inl ((hmem x).2 ⟨hx, ?_⟩)
          rintro b (hb | ⟨hb, hbx⟩)
          · exact hfreex b (.inl hb)
          · exact hfreex b (.inr ⟨.inl hb, hbx⟩)
        · exact .inr rfl

/-! ## The boundaries of a plan -/

/-- What a split takes for code that no entry loads at its start. -/
def isFree (g : ModuleGraph) (assets : List ModuleId) (id : ModuleId) : Bool :=
  !assets.contains id && !((g.entries.flatMap fun e => g.staticClosure e.2).filter fun id =>
    !assets.contains id).contains id

theorem boundaries_plan (g : ModuleGraph) (groups : List ChunkGroup) (assets : List ModuleId) :
    (plan g groups assets).boundaries = boundaries g (isFree g assets)
      (g.entries.map (·.1) ++ groups.map (·.name)) := rfl

theorem mem_eager_iff_loadedAtStart (hid : id ∈ code g assets) :
    id ∈ (plan g groups assets).eager ↔ g.LoadedAtStart id := by
  have hcode : id ∉ assets := by simpa using (List.mem_filter.1 hid).2
  rw [mem_eager_iff, and_iff_right hcode, ModuleGraph.LoadedAtStart]
  simp only [ModuleGraph.mem_staticClosure_iff]

theorem mem_filter_isFree : id ∈ g.ids.filter (isFree g assets) ↔ OnDemand g assets id := by
  have heager : (plan g [] assets).eager.contains id = true ↔ id ∈ (plan g [] assets).eager :=
    List.contains_iff_mem
  have hfree : isFree g assets id =
      (!assets.contains id && !(plan g [] assets).eager.contains id) := rfl
  have hcode : id ∈ code g assets ↔ id ∈ g.ids ∧ (!assets.contains id) = true := List.mem_filter
  rw [List.mem_filter, hfree, Bool.and_eq_true, ← and_assoc, ← hcode, OnDemand]
  apply and_congr_right
  intro hid
  rw [Bool.not_eq_true', ← Bool.not_eq_true, heager, mem_eager_iff_loadedAtStart hid]

/-- The modules that are loaded with one and that no entry loads at its start. -/
def behind (g : ModuleGraph) (free : ModuleId → Bool) (root : ModuleId) : List ModuleId :=
  (g.staticClosure [root]).filter free

variable {free : ModuleId → Bool} {taken : List String} {found : List Boundary}
  {roots : List ModuleId}

theorem map_modules_foldl_addBoundary (ids : List ModuleId) (found : List Boundary) :
    (ids.foldl (addBoundary g free taken) found).map (·.modules) =
      found.map (·.modules) ++ ids.map (behind g free) := by
  induction ids generalizing found with
  | nil => simp
  | cons x r ih =>
    rw [List.foldl_cons, ih, addBoundary, List.map_append, List.append_assoc]
    rfl

/-- Looking at a module adds a boundary exactly when it adds the module to those that boundaries are
at. -/
theorem map_modules_addStraggler (hfree : free id = true)
    (h : found.map (·.modules) = roots.map (behind g free)) :
    (addStraggler g free taken found id).map (·.modules) =
      (addRoot g roots id).map (behind g free) := by
  have hbehind : ∀ r, (behind g free r).contains id = (g.staticClosure [r]).contains id := by
    intro r
    rw [Bool.eq_iff_iff, List.contains_iff_mem, List.contains_iff_mem, behind, List.mem_filter]
    exact and_iff_left hfree
  have hany : (found.any fun b => b.modules.contains id) =
      roots.any fun r => (g.staticClosure [r]).contains id := by
    calc (found.any fun b => b.modules.contains id)
        = (found.map (·.modules)).any fun ids => ids.contains id := by
          rw [List.any_map]
          rfl
      _ = (roots.map (behind g free)).any fun ids => ids.contains id := by rw [h]
      _ = roots.any fun r => (g.staticClosure [r]).contains id := by
          rw [List.any_map]
          exact congrArg roots.any (funext hbehind)
  rw [addStraggler, addRoot, hany]
  split
  · exact h
  · rw [addBoundary, List.map_append, h, List.map_append]
    rfl

theorem map_modules_foldl_addStraggler {ids : List ModuleId} (hfree : ∀ id ∈ ids, free id = true)
    (h : found.map (·.modules) = roots.map (behind g free)) :
    (ids.foldl (addStraggler g free taken) found).map (·.modules) =
      (ids.foldl (addRoot g) roots).map (behind g free) := by
  induction ids generalizing found roots with
  | nil => exact h
  | cons x r ih =>
    obtain ⟨hx, hr⟩ := List.forall_mem_cons.1 hfree
    exact ih hr (map_modules_addStraggler hx h)

/-- The targets of dynamic imports among the modules that are loaded on demand, in order. -/
def lazyTargets (g : ModuleGraph) (assets : List ModuleId) : List ModuleId :=
  (g.dynamicTargets.filter (isFree g assets)).mergeSort ModuleId.le

theorem mem_lazyTargets_iff {x : ModuleId} :
    x ∈ lazyTargets g assets ↔ OnDemand g assets x ∧ g.IsDynamicTarget x := by
  rw [lazyTargets, List.mem_mergeSort, List.mem_filter, ModuleGraph.mem_dynamicTargets_iff,
    ← mem_filter_isFree, List.mem_filter]
  constructor
  · rintro ⟨htarget, hfree⟩
    obtain ⟨importer, d, hd, -, rfl⟩ := id htarget
    have hcontains := ModuleGraph.contains_of_mem_dependencies hd
    exact ⟨⟨ModuleGraph.contains_iff.1 hcontains, hfree⟩, htarget⟩
  · rintro ⟨⟨-, hfree⟩, htarget⟩
    exact ⟨htarget, hfree⟩

theorem pairwise_lazyTargets (g : ModuleGraph) (assets : List ModuleId) :
    (lazyTargets g assets).Pairwise (· < ·) := by
  have hnodup : (lazyTargets g assets).Nodup :=
    (List.mergeSort_perm _ _).nodup_iff.2 ((ModuleGraph.nodup_fresh _ _).filter _)
  have hle : (lazyTargets g assets).Pairwise fun a b => ModuleId.le a b = true :=
    List.pairwise_mergeSort ModuleId.le_trans ModuleId.le_total _
  refine (hle.and hnodup).imp ?_
  rintro a b ⟨hab, hne⟩
  exact ModuleId.lt_of_not_lt (ModuleId.le_iff.1 hab) hne

/-- The boundaries of a plan are those of the graph, and behind each lies what is loaded with it. -/
theorem exists_isBoundaries (g : ModuleGraph) (groups : List ChunkGroup) (assets : List ModuleId) :
    ∃ targets rest, IsBoundaries g assets targets rest ∧
      (plan g groups assets).boundaries.map (·.modules) =
        (targets ++ rest).map (behind g (isFree g assets)) := by
  have hids : (g.ids.filter (isFree g assets)).Pairwise (· < ·) :=
    (List.pairwise_map.2 g.inOrder).filter _
  obtain ⟨rest, hfold, hsub, hrest⟩ := foldl_addRoot_spec g (lazyTargets g assets) hids
  refine ⟨lazyTargets g assets, rest, ⟨pairwise_lazyTargets g assets,
    fun x => mem_lazyTargets_iff, hids.sublist hsub, ?_⟩, ?_⟩
  · intro x
    rw [hrest, mem_filter_isFree]
  · -- the boundaries of the plan are found in the same order as the modules they are at
    rw [boundaries_plan, ← hfold]
    apply map_modules_foldl_addStraggler
    · intro x hx
      exact (List.mem_filter.1 hx).2
    · rw [map_modules_foldl_addBoundary]
      rfl

/-! ## Names -/

theorem nodup_names_addBoundary (h : (found.map (·.name)).Nodup) :
    ((addBoundary g free taken found id).map (·.name)).Nodup := by
  rw [addBoundary, List.map_append, List.map_singleton]
  apply h.append (List.nodup_singleton _)
  rw [List.disjoint_singleton]
  intro hmem
  exact uniqueName_notMem _ _ (List.mem_append_right taken hmem)

theorem nodup_names_addStraggler (h : (found.map (·.name)).Nodup) :
    ((addStraggler g free taken found id).map (·.name)).Nodup := by
  unfold addStraggler
  split
  · exact h
  · exact nodup_names_addBoundary h

/-- Names stay apart in steps that keep them apart. -/
theorem nodup_names_foldl {step : List Boundary → ModuleId → List Boundary}
    (hstep : ∀ found id, (found.map (·.name)).Nodup → ((step found id).map (·.name)).Nodup)
    (ids : List ModuleId) (h : (found.map (·.name)).Nodup) :
    ((ids.foldl step found).map (·.name)).Nodup := by
  induction ids generalizing found with
  | nil => exact h
  | cons x r ih => exact ih (hstep found x h)

/-- Boundaries have names of their own. -/
theorem nodup_names_boundaries (g : ModuleGraph) (free : ModuleId → Bool) (taken : List String) :
    ((boundaries g free taken).map (·.name)).Nodup := by
  apply nodup_names_foldl
  · intro found x h
    exact nodup_names_addStraggler h
  · apply nodup_names_foldl
    · intro found x h
      exact nodup_names_addBoundary h
    · exact List.nodup_nil

end Split

end Bindery
