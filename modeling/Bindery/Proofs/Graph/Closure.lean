import Mathlib.Data.List.Nodup
import Mathlib.Data.List.Perm.Subperm
import Mathlib.Logic.Relation
import Bindery.Graph.Basic

/-!
# Closures are reachability

`closure` walks a graph from its roots with a bounded number of steps. The bound is always enough:
an id enters the queue once, and only ids of the graph enter it. So a closure lists exactly the ids
that a chain of wanted edges leads to from a root in the graph, each once.

* `Visit` : one step of a search.
* `visits_explore`, `explore_spec` : a search is followed to its end, and what it comes to, when its
  fuel covers the ids that it can meet.
* `mem_closure_iff`, `nodup_closure` : the closure of some roots.
* `Loads`, `Reaches` : what is loaded together with some roots, and what they lead to at all.
* `mem_closure_of_leads`, `staticClosure_subset_fullClosure` : what other modules use of it.
* `mem_ancestors_iff` : the same walk against the direction of the imports.
-/

namespace Bindery

namespace ModuleGraph

/-! ## Ids that were not seen before -/

theorem mem_fresh {ids seen : List ModuleId} {x : ModuleId} :
    x ∈ fresh seen ids ↔ x ∈ ids ∧ x ∉ seen := by
  induction ids generalizing seen with
  | nil => simp [fresh]
  | cons y r ih =>
    by_cases hy : y ∈ seen
    · simp only [fresh, List.contains_iff_mem.2 hy, if_true, ih, List.mem_cons]
      constructor
      · rintro ⟨hx, hs⟩
        exact ⟨.inr hx, hs⟩
      · rintro ⟨rfl | hx, hs⟩
        · exact absurd hy hs
        · exact ⟨hx, hs⟩
    · have hc : seen.contains y = false := by simpa using hy
      simp only [fresh, hc, Bool.false_eq_true, if_false, List.mem_cons, ih, not_or]
      constructor
      · rintro (rfl | ⟨hx, _, hs⟩)
        · exact ⟨.inl rfl, hy⟩
        · exact ⟨.inr hx, hs⟩
      · rintro ⟨rfl | hx, hs⟩
        · exact .inl rfl
        · by_cases hxy : x = y
          · exact .inl hxy
          · exact .inr ⟨hx, hxy, hs⟩

theorem nodup_fresh (ids seen : List ModuleId) : (fresh seen ids).Nodup := by
  induction ids generalizing seen with
  | nil => exact List.nodup_nil
  | cons y r ih =>
    unfold fresh
    split
    · exact ih seen
    · refine List.nodup_cons.2 ⟨?_, ih _⟩
      intro h
      exact (mem_fresh.1 h).2 List.mem_cons_self

/-! ## Walks -/

/-- What holds at every moment of a walk from some roots. -/
structure Walk (next : ModuleId → List ModuleId) (roots queue seen : List ModuleId) : Prop where
  roots_seen : roots ⊆ seen
  seen_nodup : seen.Nodup
  queue_seen : queue ⊆ seen
  /-- What has left the queue has been followed. -/
  followed : ∀ a ∈ seen, a ∉ queue → next a ⊆ seen
  reached : ∀ a ∈ seen, ∃ r ∈ roots, Relation.ReflTransGen (fun x y => y ∈ next x) r a

variable {next : ModuleId → List ModuleId} {roots queue seen : List ModuleId} {id : ModuleId}

theorem Walk.start (h : roots.Nodup) : Walk next roots roots roots where
  roots_seen := List.Subset.refl _
  seen_nodup := h
  queue_seen := List.Subset.refl _
  followed := fun _ ha hq => absurd ha hq
  reached := fun a ha => ⟨a, ha, .refl⟩

/-- Taking the first id off the queue and following it keeps the walk going. -/
theorem Walk.step (h : Walk next roots (id :: queue) seen) :
    Walk next roots (queue ++ fresh seen (next id)) (seen ++ fresh seen (next id)) where
  roots_seen := fun _ hr => List.mem_append_left _ (h.roots_seen hr)
  seen_nodup := by
    refine List.nodup_append.2 ⟨h.seen_nodup, nodup_fresh _ _, ?_⟩
    rintro a ha b hb rfl
    exact (mem_fresh.1 hb).2 ha
  queue_seen := by
    intro a ha
    rcases List.mem_append.1 ha with ha | ha
    · exact List.mem_append_left _ (h.queue_seen (List.mem_cons_of_mem _ ha))
    · exact List.mem_append_right _ ha
  followed := by
    intro a ha hq b hb
    rw [List.mem_append, not_or] at hq
    have hseen : a ∈ seen := (List.mem_append.1 ha).resolve_right hq.2
    -- the first id is followed now, the others that have left the queue were followed before
    by_cases haid : a = id
    · subst haid
      by_cases hbs : b ∈ seen
      · exact List.mem_append_left _ hbs
      · exact List.mem_append_right _ (mem_fresh.2 ⟨hb, hbs⟩)
    · have hqueue : a ∉ id :: queue := fun hm => hq.1 ((List.mem_cons.1 hm).resolve_left haid)
      exact List.mem_append_left _ (h.followed a hseen hqueue hb)
  reached := by
    intro a ha
    rcases List.mem_append.1 ha with ha | ha
    · exact h.reached a ha
    · rcases h.reached id (h.queue_seen List.mem_cons_self) with ⟨r, hr, hpath⟩
      exact ⟨r, hr, hpath.tail (mem_fresh.1 ha).1⟩

/-- One step of a search, which is a queue and all ids that were seen: the first id of the queue is
followed, and what was not seen before is put at its end. -/
inductive Visit (next : ModuleId → List ModuleId) :
    List ModuleId × List ModuleId → List ModuleId × List ModuleId → Prop
  | follow (id : ModuleId) (queue seen : List ModuleId) :
    Visit next (id :: queue, seen)
      (queue ++ fresh seen (next id), seen ++ fresh seen (next id))

/-- What every step keeps going is going at the end. -/
theorem Walk.of_visits {s t : List ModuleId × List ModuleId} (h : Walk next roots s.1 s.2)
    (hvisits : Relation.ReflTransGen (Visit next) s t) : Walk next roots t.1 t.2 := by
  induction hvisits with
  | refl => exact h
  | tail _ hvisit ih =>
    cases hvisit with
    | follow id queue seen => exact ih.step

/-- With enough fuel a search is followed to its end, where nothing is left in the queue. `pool`
holds every id that it can meet; the ids that have left the queue are what `seen` is longer by. -/
theorem visits_explore {pool : List ModuleId} {fuel : Nat} (h : Walk next roots queue seen)
    (hseen : seen ⊆ pool) (hnext : ∀ a, next a ⊆ pool)
    (hfuel : pool.length + queue.length < fuel + seen.length) :
    Relation.ReflTransGen (Visit next) (queue, seen) ([], explore next fuel queue seen) := by
  have hlen : seen.length ≤ pool.length := (h.seen_nodup.subperm hseen).length_le
  induction fuel generalizing queue seen with
  | zero => omega
  | succ n ih =>
    cases queue with
    | nil => exact .refl
    | cons a q =>
      -- a step takes one id off the queue, and what it adds was not seen before
      have hs := h.step
      have hsub : seen ++ fresh seen (next a) ⊆ pool := by
        refine List.append_subset.2 ⟨hseen, ?_⟩
        exact fun b hb => hnext a (mem_fresh.1 hb).1
      refine .head (.follow a q seen) (ih hs hsub ?_ (hs.seen_nodup.subperm hsub).length_le)
      simp only [List.length_append, List.length_cons] at hfuel ⊢
      omega

/-- A walk with enough fuel ends with nothing left to follow. -/
theorem explore_spec {pool : List ModuleId} {fuel : Nat} (h : Walk next roots queue seen)
    (hseen : seen ⊆ pool) (hnext : ∀ a, next a ⊆ pool)
    (hfuel : pool.length + queue.length < fuel + seen.length) :
    Walk next roots [] (explore next fuel queue seen) := by
  have hstart : Walk next roots (queue, seen).1 (queue, seen).2 := h
  exact hstart.of_visits (visits_explore h hseen hnext hfuel)

/-- At the end of a walk everything that the roots lead to has been seen. -/
theorem Walk.mem_iff (h : Walk next roots [] seen) {x : ModuleId} :
    x ∈ seen ↔ ∃ r ∈ roots, Relation.ReflTransGen (fun a b => b ∈ next a) r x := by
  constructor
  · exact h.reached x
  · rintro ⟨r, hr, hpath⟩
    induction hpath with
    | refl => exact h.roots_seen hr
    | tail _ hstep ih => exact h.followed _ ih List.not_mem_nil hstep

/-! ## Closures -/

variable (g : ModuleGraph) {follow : ImportKind → Bool}

theorem contains_iff {g : ModuleGraph} {id : ModuleId} : g.contains id = true ↔ id ∈ g.ids := by
  simp [contains, ids]

theorem pairwise_ids : g.ids.Pairwise (· < ·) := List.pairwise_map.2 g.inOrder

theorem nodup_ids : g.ids.Nodup := g.pairwise_ids.imp fun hlt => ModuleId.ne_of_lt hlt

/-- An edge of a wanted kind between modules of the graph. -/
def Leads (follow : ImportKind → Bool) (a b : ModuleId) : Prop :=
  ∃ d ∈ g.dependencies a, follow d.2 = true ∧ d.1 = b

/-- What the wanted edges of a module lead to, in source order. -/
def targets (follow : ImportKind → Bool) (a : ModuleId) : List ModuleId :=
  ((g.dependencies a).filter fun d => follow d.2).map (·.1)

variable {g}

theorem mem_targets {a b : ModuleId} : b ∈ g.targets follow a ↔ g.Leads follow a b := by
  simp only [targets, Leads, List.mem_map, List.mem_filter, and_assoc]

theorem contains_of_mem_dependencies {a : ModuleId} {d : ModuleId × ImportKind}
    (h : d ∈ g.dependencies a) : g.contains d.1 = true := by
  unfold dependencies at h
  split at h
  · exact (List.mem_filter.1 h).2
  · simp at h

theorem targets_subset_ids (a : ModuleId) : g.targets follow a ⊆ g.ids := by
  intro b hb
  rcases mem_targets.1 hb with ⟨d, hd, -, rfl⟩
  exact contains_iff.1 (contains_of_mem_dependencies hd)

/-- Where the search for a closure starts: with the roots in the graph, each once. -/
def presentRoots (g : ModuleGraph) (roots : List ModuleId) : List ModuleId :=
  fresh [] (roots.filter g.contains)

theorem mem_presentRoots {roots : List ModuleId} {x : ModuleId} :
    x ∈ g.presentRoots roots ↔ x ∈ roots ∧ g.contains x = true := by
  simp only [presentRoots, mem_fresh, List.mem_filter, List.not_mem_nil, not_false_eq_true, and_true]

/-- The search for a closure comes to its end. -/
theorem visits_closure (g : ModuleGraph) (follow : ImportKind → Bool) (roots : List ModuleId) :
    Relation.ReflTransGen (Visit (g.targets follow)) (g.presentRoots roots, g.presentRoots roots)
      ([], g.closure follow roots) := by
  have hstart : g.presentRoots roots ⊆ g.ids := by
    intro a ha
    exact contains_iff.1 (mem_presentRoots.1 ha).2
  refine visits_explore (Walk.start (nodup_fresh _ _)) hstart targets_subset_ids ?_
  simp only [ids, List.length_map]
  omega

theorem walk_closure (follow : ImportKind → Bool) (roots : List ModuleId) :
    Walk (g.targets follow) (g.presentRoots roots) [] (g.closure follow roots) := by
  have hstart : Walk (g.targets follow) (g.presentRoots roots)
      (g.presentRoots roots, g.presentRoots roots).1
      (g.presentRoots roots, g.presentRoots roots).2 := Walk.start (nodup_fresh _ _)
  exact hstart.of_visits (visits_closure g follow roots)

theorem nodup_closure (follow : ImportKind → Bool) (roots : List ModuleId) :
    (g.closure follow roots).Nodup :=
  (walk_closure follow roots).seen_nodup

/-- A closure holds what a chain of wanted edges leads to from a root in the graph. -/
theorem mem_closure_iff {roots : List ModuleId} {x : ModuleId} :
    x ∈ g.closure follow roots ↔
      ∃ r ∈ roots, g.contains r = true ∧ Relation.ReflTransGen (g.Leads follow) r x := by
  rw [(walk_closure follow roots).mem_iff]
  simp only [mem_targets, mem_presentRoots, and_assoc]

/-- Imports that are loaded with their importers lead to a module from one of some roots in the
graph. -/
def Loads (g : ModuleGraph) (roots : List ModuleId) (id : ModuleId) : Prop :=
  ∃ r ∈ roots, g.contains r = true ∧ Relation.ReflTransGen (g.Leads ImportKind.isStatic) r id

/-- Imports of any kind lead to a module from one of some roots in the graph. -/
def Reaches (g : ModuleGraph) (roots : List ModuleId) (id : ModuleId) : Prop :=
  ∃ r ∈ roots, g.contains r = true ∧ Relation.ReflTransGen (g.Leads fun _ => true) r id

theorem mem_staticClosure_iff {roots : List ModuleId} {x : ModuleId} :
    x ∈ g.staticClosure roots ↔ g.Loads roots x :=
  mem_closure_iff

theorem mem_fullClosure_iff {roots : List ModuleId} {x : ModuleId} :
    x ∈ g.fullClosure roots ↔ g.Reaches roots x :=
  mem_closure_iff

theorem contains_of_mem_closure {roots : List ModuleId} {x : ModuleId}
    (h : x ∈ g.closure follow roots) : g.contains x = true := by
  rcases mem_closure_iff.1 h with ⟨r, _, hr, hpath⟩
  rcases hpath.cases_tail with rfl | ⟨_, _, d, hd, _, rfl⟩
  · exact hr
  · exact contains_of_mem_dependencies hd

/-- The target of a wanted edge of a member is a member. -/
theorem mem_closure_of_leads {roots : List ModuleId} {x y : ModuleId}
    (hx : x ∈ g.closure follow roots) (h : g.Leads follow x y) : y ∈ g.closure follow roots := by
  rcases mem_closure_iff.1 hx with ⟨r, hr, hcr, hrx⟩
  exact mem_closure_iff.2 ⟨r, hr, hcr, hrx.tail h⟩

theorem mem_closure_self {id : ModuleId} (h : g.contains id = true) : id ∈ g.closure follow [id] :=
  mem_closure_iff.2 ⟨id, List.mem_singleton_self _, h, .refl⟩

theorem staticClosure_subset_fullClosure (roots : List ModuleId) :
    g.staticClosure roots ⊆ g.fullClosure roots := by
  intro x hx
  rcases mem_closure_iff.1 hx with ⟨r, hr, hcr, hpath⟩
  refine mem_closure_iff.2 ⟨r, hr, hcr, Relation.ReflTransGen.mono ?_ _ _ hpath⟩
  rintro a b ⟨d, hd, -, rfl⟩
  exact ⟨d, hd, rfl, rfl⟩

/-! ## Ancestors -/

theorem mem_dependents {id : ModuleId} {d : Dependent} :
    d ∈ g.dependents id ↔ ∃ m ∈ g.modules, m.id = d.importer ∧ (id, d.kind) ∈ m.dependencies := by
  simp only [dependents, List.mem_eraseDups, List.mem_flatMap, List.mem_filterMap]
  constructor
  · rintro ⟨m, hm, e, he, hd⟩
    split at hd
    · next heq =>
      obtain rfl := Option.some.inj hd
      exact ⟨m, hm, rfl, heq ▸ he⟩
    · simp at hd
  · rintro ⟨m, hm, himporter, hd⟩
    refine ⟨m, hm, (id, d.kind), hd, ?_⟩
    simp [himporter]

/-- A module imports an id. -/
def Imports (g : ModuleGraph) (a b : ModuleId) : Prop :=
  ∃ m ∈ g.modules, m.id = a ∧ b ∈ m.dependencies.map (·.1)

theorem mem_importers {a b : ModuleId} :
    a ∈ (g.dependents b).map (·.importer) ↔ g.Imports a b := by
  constructor
  · intro h
    rcases List.mem_map.1 h with ⟨d, hd, rfl⟩
    rcases mem_dependents.1 hd with ⟨m, hm, hid, hmem⟩
    exact ⟨m, hm, hid, List.mem_map_of_mem hmem⟩
  · rintro ⟨m, hm, rfl, hb⟩
    rcases List.mem_map.1 hb with ⟨⟨_, kind⟩, hmem, rfl⟩
    exact List.mem_map.2 ⟨⟨m.id, kind⟩, mem_dependents.2 ⟨m, hm, rfl, hmem⟩, rfl⟩

/-- The ancestors of some ids are these and what imports one of them, directly or not. -/
theorem mem_ancestors_iff {changed : List ModuleId} {x : ModuleId} :
    x ∈ g.ancestors changed ↔
      ∃ c ∈ changed, Relation.ReflTransGen (fun a b => g.Imports b a) c x := by
  have hstart : fresh [] changed ⊆ fresh [] changed ++ g.ids := List.subset_append_left _ _
  have hnext : ∀ a, (g.dependents a).map (·.importer) ⊆ fresh [] changed ++ g.ids := by
    intro a b hb
    rcases mem_importers.1 hb with ⟨m, hm, rfl, -⟩
    exact List.mem_append_right _ (List.mem_map_of_mem hm)
  -- an id that is not in the graph may be changed too, so the pool holds these besides the modules
  have hfuel : (fresh [] changed ++ g.ids).length + (fresh [] changed).length <
      (fresh [] changed).length + g.modules.length + 1 + (fresh [] changed).length := by
    simp [ids]
  have hwalk := explore_spec (Walk.start (nodup_fresh changed [])) hstart hnext hfuel
  rw [ancestors, IdSet.mem_ofList, hwalk.mem_iff]
  simp only [mem_importers, mem_fresh, List.not_mem_nil, not_false_eq_true, and_true]

theorem subset_ancestors (changed : List ModuleId) : changed ⊆ g.ancestors changed :=
  fun c hc => mem_ancestors_iff.2 ⟨c, hc, .refl⟩

end ModuleGraph

end Bindery
