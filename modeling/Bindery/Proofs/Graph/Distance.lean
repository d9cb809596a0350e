import Mathlib.Order.Lattice.Nat
import Bindery.Proofs.Graph.Snapshot

/-!
# Closures go from near to far

The search for a closure follows ids in the order in which they were found. So its queue never
holds ids of more than two distances from the roots, nearer ones before farther ones, and everything
that was not found yet is farther away than the first id of the queue. That makes the closure a list
in order of distance.

* `Arrives`, `distance` : how many steps lead from some roots to an id, and the fewest of them.
* `Levelled`, `Levelled.step` : what every step of a search keeps.
* `Link`, `leads_iff` : the edges of a graph, in terms of the imports of its modules.
* `BreadthFirst` : a list of all that links lead to, from near to far.
* `closures_breadthFirst` : both closures of a graph are such lists.
-/

namespace Bindery

namespace ModuleGraph

/-! ## Distances -/

/-- Some number of steps leads from a start to an id. -/
inductive Arrives (step : ModuleId → ModuleId → Prop) (start : ModuleId → Prop) :
    Nat → ModuleId → Prop
  | start {id : ModuleId} (h : start id) : Arrives step start 0 id
  | step {n : Nat} {a b : ModuleId} (h : Arrives step start n a) (hstep : step a b) :
    Arrives step start (n + 1) b

/-- The fewest steps that lead from a start to an id. -/
noncomputable def distance (step : ModuleId → ModuleId → Prop) (start : ModuleId → Prop)
    (id : ModuleId) : Nat :=
  sInf { n | Arrives step start n id }

section Distance

variable {step : ModuleId → ModuleId → Prop} {start : ModuleId → Prop} {n : Nat} {a b : ModuleId}

theorem exists_arrives_iff :
    (∃ n, Arrives step start n a) ↔ ∃ r, start r ∧ Relation.ReflTransGen step r a := by
  constructor
  · rintro ⟨n, h⟩
    induction h with
    | start h => exact ⟨_, h, .refl⟩
    | step _ hstep ih =>
      obtain ⟨r, hr, hpath⟩ := ih
      exact ⟨r, hr, hpath.tail hstep⟩
  · rintro ⟨r, hr, hpath⟩
    induction hpath with
    | refl => exact ⟨0, .start hr⟩
    | tail _ hstep ih =>
      obtain ⟨n, h⟩ := ih
      exact ⟨n + 1, .step h hstep⟩

theorem distance_le (h : Arrives step start n a) : distance step start a ≤ n :=
  Nat.sInf_le h

/-- What can be arrived at is arrived at in as many steps as it is away. -/
theorem arrives_distance (h : Arrives step start n a) :
    Arrives step start (distance step start a) a :=
  Nat.sInf_mem (s := { n | Arrives step start n a }) ⟨n, h⟩

/-- A step goes at most one farther away. -/
theorem distance_le_succ (h : Arrives step start n a) (hstep : step a b) :
    distance step start b ≤ distance step start a + 1 :=
  distance_le ((arrives_distance h).step hstep)

end Distance

/-! ## Searches keep the order of distances -/

variable {next : ModuleId → List ModuleId} {roots queue seen : List ModuleId} {id : ModuleId}

/-- The distance from some roots for a search that follows `next`. -/
noncomputable abbrev depth (next : ModuleId → List ModuleId) (roots : List ModuleId) :
    ModuleId → Nat :=
  distance (fun a b => b ∈ next a) (· ∈ roots)

/-- What holds of the distances at every moment of a search. -/
structure Levelled (next : ModuleId → List ModuleId) (roots queue seen : List ModuleId) : Prop
    extends Walk next roots queue seen where
  /-- What was seen goes from near to far. -/
  ordered : seen.Pairwise fun a b => depth next roots a ≤ depth next roots b
  /-- What is still to be followed was seen last. -/
  queue_suffix : queue <:+ seen
  /-- Nothing that was seen is more than one step farther away than the first id of the queue. -/
  span : ∀ first rest, queue = first :: rest → ∀ a ∈ seen,
    depth next roots a ≤ depth next roots first + 1

theorem Walk.arrives (h : Walk next roots queue seen) {a : ModuleId} (ha : a ∈ seen) :
    ∃ n, Arrives (fun x y => y ∈ next x) (· ∈ roots) n a :=
  exists_arrives_iff.2 (h.reached a ha)

/-- No root is farther away than another one. -/
theorem Levelled.start (h : roots.Nodup) : Levelled next roots roots roots where
  toWalk := Walk.start h
  ordered := by
    refine List.pairwise_of_forall_mem_list ?_
    intro a ha b _
    have hroot : depth next roots a ≤ 0 := distance_le (.start ha)
    omega
  queue_suffix := List.suffix_refl _
  span := by
    intro first rest _ a ha
    have hroot : depth next roots a ≤ 0 := distance_le (.start ha)
    omega

/-- No id of the queue is nearer than its first one. -/
theorem Levelled.depth_le (h : Levelled next roots (id :: queue) seen) {a : ModuleId}
    (ha : a ∈ id :: queue) : depth next roots id ≤ depth next roots a := by
  rcases List.mem_cons.1 ha with rfl | ha
  · exact Nat.le_refl _
  · exact (List.pairwise_cons.1 (h.ordered.sublist h.queue_suffix.sublist)).1 a ha

/-- What was not seen yet is farther away than the first id of the queue. -/
theorem Levelled.lt_of_notMem (h : Levelled next roots (id :: queue) seen) {n : Nat} {a : ModuleId}
    (harrives : Arrives (fun x y => y ∈ next x) (· ∈ roots) n a) (ha : a ∉ seen) :
    depth next roots id < n := by
  -- the way to it leaves what was seen somewhere, and it does so from an id of the queue
  induction harrives with
  | start hroot => exact absurd (h.roots_seen hroot) ha
  | @step n b c hb hstep ih =>
    by_cases hseen : b ∈ seen
    · have hqueue : b ∈ id :: queue := by
        by_contra hfollowed
        exact ha (h.followed b hseen hfollowed hstep)
      have hnear : depth next roots id ≤ depth next roots b := h.depth_le hqueue
      have hsteps : depth next roots b ≤ n := distance_le hb
      omega
    · have hfar : depth next roots id < n := ih hseen
      omega

/-- What is found by following the first id of the queue is one step farther away. -/
theorem Levelled.depth_fresh (h : Levelled next roots (id :: queue) seen) {a : ModuleId}
    (ha : a ∈ fresh seen (next id)) : depth next roots a = depth next roots id + 1 := by
  obtain ⟨hnext, hunseen⟩ := mem_fresh.1 ha
  obtain ⟨n, hid⟩ := h.arrives (h.queue_seen List.mem_cons_self)
  have hnear : depth next roots a ≤ depth next roots id + 1 := distance_le_succ hid hnext
  have hfar : depth next roots id < depth next roots a :=
    h.lt_of_notMem (arrives_distance (hid.step hnext)) hunseen
  omega

/-- Following the first id of the queue keeps the order of distances. -/
theorem Levelled.step (h : Levelled next roots (id :: queue) seen) :
    Levelled next roots (queue ++ fresh seen (next id)) (seen ++ fresh seen (next id)) := by
  -- all that is there after the step is at most one step farther away than the id that was followed
  have hnear : ∀ a ∈ seen ++ fresh seen (next id), depth next roots a ≤ depth next roots id + 1 := by
    intro a ha
    rcases List.mem_append.1 ha with ha | ha
    · exact h.span id queue rfl a ha
    · exact Nat.le_of_eq (h.depth_fresh ha)
  refine { h.toWalk.step with ordered := ?_, queue_suffix := ?_, span := ?_ }
  · refine List.pairwise_append.2 ⟨h.ordered, ?_, ?_⟩
    · refine List.pairwise_of_forall_mem_list ?_
      intro a ha b hb
      rw [h.depth_fresh ha, h.depth_fresh hb]
    · intro a ha b hb
      rw [h.depth_fresh hb]
      exact h.span id queue rfl a ha
  · obtain ⟨done, hdone⟩ := h.queue_suffix
    refine ⟨done ++ [id], ?_⟩
    rw [← hdone]
    simp only [List.append_assoc, List.cons_append, List.nil_append]
  · intro first rest hqueue a ha
    have hfirst : first ∈ queue ++ fresh seen (next id) := hqueue ▸ List.mem_cons_self
    -- and the id that is followed next is not nearer than that one
    have hlater : depth next roots id ≤ depth next roots first := by
      rcases List.mem_append.1 hfirst with hfirst | hfirst
      · exact h.depth_le (List.mem_cons_of_mem _ hfirst)
      · rw [h.depth_fresh hfirst]
        exact Nat.le_succ _
    have ha' : depth next roots a ≤ depth next roots id + 1 := hnear a ha
    omega

theorem Levelled.of_visits {s t : List ModuleId × List ModuleId} (h : Levelled next roots s.1 s.2)
    (hvisits : Relation.ReflTransGen (Visit next) s t) : Levelled next roots t.1 t.2 := by
  induction hvisits with
  | refl => exact h
  | tail _ hvisit ih =>
    cases hvisit with
    | follow id queue seen => exact ih.step

/-! ## Closures -/

variable {g : ModuleGraph} {follow : ImportKind → Bool} {a b : ModuleId}

/-- A module of the graph has an import of a wanted kind that means another module of the graph. -/
def Link (g : ModuleGraph) (follow : ImportKind → Bool) (a b : ModuleId) : Prop :=
  (∃ m ∈ g.modules, m.id = a ∧ ∃ i ∈ m.imports, i.resolved = some b ∧ follow i.kind = true) ∧
    b ∈ g.ids

theorem leads_iff : g.Leads follow a b ↔ g.Link follow a b := by
  constructor
  · rintro ⟨d, hd, hfollow, rfl⟩
    obtain ⟨m, hm, hid, hmem, hcontains⟩ := mem_dependencies_iff.1 hd
    obtain ⟨i, hi, hresolved, hkind⟩ := Module.mem_dependencies_iff.1 hmem
    exact ⟨⟨m, hm, hid, i, hi, hresolved, hkind ▸ hfollow⟩, contains_iff.1 hcontains⟩
  · rintro ⟨⟨m, hm, hid, i, hi, hresolved, hfollow⟩, hb⟩
    have hmem : (b, i.kind) ∈ m.dependencies := Module.mem_dependencies_iff.2 ⟨i, hi, hresolved, rfl⟩
    exact ⟨(b, i.kind), mem_dependencies_iff.2 ⟨m, hm, hid, hmem, contains_iff.2 hb⟩, hfollow, rfl⟩

/-- A list of all that links of the wanted kinds lead to from some roots, as a search finds it. Roots
that are not in the graph do not count. -/
structure BreadthFirst (g : ModuleGraph) (follow : ImportKind → Bool) (roots found : List ModuleId) :
    Prop where
  /-- The search comes to an end: its queue is empty then, and the list is what it has seen. -/
  ends : Relation.ReflTransGen (Visit (g.targets follow)) (g.presentRoots roots, g.presentRoots roots)
    ([], found)
  nodup : found.Nodup
  mem_iff : ∀ x, x ∈ found ↔
    ∃ r ∈ roots, r ∈ g.ids ∧ Relation.ReflTransGen (g.Link follow) r x
  /-- Nearer modules come before farther ones. -/
  ordered : found.Pairwise fun x y =>
    distance (g.Link follow) (fun r => r ∈ roots ∧ r ∈ g.ids) x ≤
      distance (g.Link follow) (fun r => r ∈ roots ∧ r ∈ g.ids) y

theorem breadthFirst_closure (g : ModuleGraph) (follow : ImportKind → Bool)
    (roots : List ModuleId) : BreadthFirst g follow roots (g.closure follow roots) := by
  have hlink : g.Leads follow = g.Link follow := by
    funext a b
    exact propext leads_iff
  constructor
  case ends => exact visits_closure g follow roots
  case nodup => exact nodup_closure follow roots
  case mem_iff =>
    intro x
    rw [mem_closure_iff, hlink]
    simp only [contains_iff]
  case ordered =>
    have hstart : Levelled (g.targets follow) (g.presentRoots roots)
        (g.presentRoots roots, g.presentRoots roots).1
        (g.presentRoots roots, g.presentRoots roots).2 := Levelled.start (nodup_fresh _ _)
    have hsearch : (fun a b => b ∈ g.targets follow a) = g.Link follow := by
      funext a b
      exact propext (mem_targets.trans leads_iff)
    have hroots : (· ∈ g.presentRoots roots) = fun r => r ∈ roots ∧ r ∈ g.ids := by
      funext r
      exact propext (mem_presentRoots.trans (and_congr_right fun _ => contains_iff))
    have hordered := (hstart.of_visits (visits_closure g follow roots)).ordered
    rw [depth, hsearch, hroots] at hordered
    exact hordered

/-- The search for what is loaded together with some roots, and for what can be loaded from them at
all, comes to an end and finds just that, each module once, from near to far: for every graph and all
roots. -/
theorem closures_breadthFirst (g : ModuleGraph) (roots : List ModuleId) :
    BreadthFirst g (fun kind => kind != .dynamic) roots (g.staticClosure roots) ∧
      BreadthFirst g (fun _ => true) roots (g.fullClosure roots) :=
  ⟨breadthFirst_closure g _ roots, breadthFirst_closure g _ roots⟩

end ModuleGraph

end Bindery
