import Bindery.Proofs.Graph.Snapshot
import Bindery.Proofs.Graph.Termination

/-!
# What a build gives

A build that comes to its end gives the modules of the wanted ids with stand-ins for what could not
be found, and their failures in order of messages. A build without failures has come to its end,
and its graph holds all that its modules and entries refer to.

* `Outcome` : what is known of the result of a build.
* `exists_outcome`, `exists_outcome_of_isAbsolute` : it holds of every build that ends.
* `linked_of_errors_eq_nil` : graphs that are built without failures.
-/

namespace Bindery

namespace GraphBuilder

variable {b : GraphBuilder} {p : Project} {schedule : Schedule} {entries : EntryMap String}
  {previous : Option ModuleGraph} {touched : List ModuleId} {id : ModuleId}

/-- The modules that a build takes over from an earlier graph. -/
def reused? (previous : Option ModuleGraph) (touched : List ModuleId) : ModuleId → Option Module :=
  carried? previous ((previous.map (reloadSet · touched)).getD [])

/-- The state in which a build stops. -/
def lastState (b : GraphBuilder) (schedule : Schedule) (p : Project) (entries : EntryMap String)
    (previous : Option ModuleGraph) (touched : List ModuleId) : State :=
  b.run p (reused? previous touched) schedule
    (stepBound p previous (b.start p entries).1.pending.length) (b.start p entries).1

theorem reused?_none (touched : List ModuleId) : reused? none touched = fun _ => none := by
  funext id
  simp [reused?, carried?]

theorem mem_of_reused? {g : ModuleGraph} {m : Module} (h : reused? (some g) touched id = some m) :
    m ∈ g.modules ∧ m.id = id ∧ id ∉ reloadSet g touched := by
  have hmem := mem_earlier_of_carried? h
  refine ⟨by simpa [earlier] using hmem.1, hmem.2, ?_⟩
  intro hreload
  simp [reused?, carried?, hreload] at h

/-- A module that is taken over has no import without a target, and none that could not be found. -/
theorem resolved_of_reused? {g : ModuleGraph} {m : Module}
    (h : reused? (some g) touched id = some m) {i : Import} (hi : i ∈ m.imports) :
    ∃ t, i.resolved = some t ∧ t.isMissing = false := by
  rcases mem_of_reused? h with ⟨hm, hid, hreload⟩
  -- otherwise the module would be read again
  have hnone : ¬i.resolved.all (·.isMissing) = true := by
    intro hall
    refine hreload (List.mem_append_right _ (List.mem_map.2 ⟨m, ?_, hid⟩))
    exact List.mem_filter.2 ⟨hm, List.any_eq_true.2 ⟨i, hi, hall⟩⟩
  cases hresolved : i.resolved with
  | none => simp [hresolved] at hnone
  | some t => exact ⟨t, rfl, by simpa [hresolved] using hnone⟩

theorem id_of_met? {m : Module} (h : b.met? p (reused? previous touched) id = some m) :
    m.id = id := by
  rcases met?_cases h with hcarry | ⟨-, errors, hload⟩
  · exact (mem_earlier_of_carried? hcarry).2
  · exact id_of_load hload

/-- A module that names something that could not be found was read, never taken over. -/
theorem reused?_eq_none_of_missing {m : Module} {t : ModuleId}
    (hmet : b.met? p (reused? previous touched) id = some m) (ht : t ∈ m.targets)
    (hmissing : t.isMissing = true) : reused? previous touched id = none := by
  cases hcarry : reused? previous touched id with
  | none => rfl
  | some m' =>
    obtain rfl := Option.some.inj ((met?_of_carry hcarry).symm.trans hmet)
    rcases Module.mem_targets.1 ht with ⟨i, hi, hit⟩
    cases previous with
    | none => simp [reused?_none] at hcarry
    | some g =>
      rcases resolved_of_reused? hcarry hi with ⟨t', ht', hpresent⟩
      obtain rfl := Option.some.inj (ht'.symm.trans hit)
      simp [hmissing] at hpresent

/-! ## Builds that end -/

/-- What is known of the result of a build: `done` lists the wanted ids, `named` the stand-ins with
what they were first named by. -/
structure Outcome (b : GraphBuilder) (p : Project) (entries : EntryMap String)
    (carry : ModuleId → Option Module) (done : List ModuleId) (named : List (ModuleId × String))
    (built : GraphBuild) : Prop where
  roots : built.graph.entries = .ofList (b.start p entries).2
  modules : built.graph.modules.Perm (standIns named ++ done.filterMap (b.met? p carry))
  errors : built.errors.Perm ((b.start p entries).1.errors ++ done.flatMap (b.failures p carry))
  /-- Failures are in order of their messages. -/
  sorted : built.errors.Pairwise fun e e' => e.message ≤ e'.message
  nodup : done.Nodup
  mem_done : ∀ id, id ∈ done ↔ Wanted b p carry (b.start p entries).1.pending id
  nodup_named : (named.map (·.1)).Nodup
  missing : ∀ x ∈ named, x.1.isMissing = true
  asked : ∀ t, t ∈ named.map (·.1) ↔
    t ∈ (b.start p entries).1.seen ∨ ∃ id ∈ done, AsksFor b p carry id t

theorem isMissing_of_wanted {carry : ModuleId → Option Module} {roots : List ModuleId}
    (h : Wanted b p carry roots id) : id.isMissing = false := by
  cases h with
  | root _ hmissing => exact hmissing
  | target _ _ _ hmissing => exact hmissing

theorem map_id_standIns (named : List (ModuleId × String)) :
    (standIns named).map (·.id) = named.map (·.1) := by
  simp [standIns]

theorem pairwise_sortByMessage (errors : List GraphError) :
    (GraphError.sortByMessage errors).Pairwise fun e e' => e.message ≤ e'.message := by
  refine (List.pairwise_mergeSort ?_ ?_ errors).imp of_decide_eq_true
  · intro a b c hab hbc
    exact decide_eq_true (String.le_trans (of_decide_eq_true hab) (of_decide_eq_true hbc))
  · intro a b
    simpa using String.le_total a.message b.message

variable (b p previous touched) in
/-- The modules of some ids have these ids. -/
theorem map_id_met?_sublist (done : List ModuleId) :
    ((done.filterMap (b.met? p (reused? previous touched))).map (·.id)).Sublist done := by
  induction done with
  | nil => exact List.Sublist.refl _
  | cons id r ih =>
    rw [List.filterMap_cons]
    split
    · exact ih.cons id
    · next m hm =>
      rw [List.map_cons, id_of_met? hm]
      exact ih.cons_cons id

/-- At every moment of a build its modules have different ids: stand-ins have ids of their own. -/
theorem Progress.nodup_map_id {start s : State} {done : List ModuleId}
    {named : List (ModuleId × String)}
    (h : Progress b p (reused? previous touched) start done named s) :
    (s.modules.map (·.id)).Nodup := by
  refine (h.modules.map _).nodup_iff.2 ?_
  rw [List.map_append, map_id_standIns, List.nodup_append]
  have hsub := map_id_met?_sublist b p previous touched done
  refine ⟨h.nodup_named, hsub.nodup h.nodup_done, ?_⟩
  rintro x hx y hy rfl
  rcases List.mem_map.1 hx with ⟨n, hn, rfl⟩
  have hpresent := h.present _ (List.mem_append_left _ (hsub.subset hy))
  simp [h.missing n hn] at hpresent

variable (b p schedule entries previous touched) in
/-- The graph of a build holds the modules of the state in which the build stops. -/
theorem modules_perm_lastState :
    (b.rebuildWith schedule p entries previous touched).graph.modules.Perm
      (b.lastState schedule p entries previous touched).modules := by
  rcases exists_progress b p entries (reused? previous touched) schedule
    (stepBound p previous (b.start p entries).1.pending.length) with ⟨done, named, h⟩
  exact ModuleGraph.modules_ofModules_perm _ h.nodup_map_id

/-- What a build gives that has come to its end. -/
theorem exists_outcome
    (hend : (b.lastState schedule p entries previous touched).isDone = true) :
    ∃ done named, Outcome b p entries (reused? previous touched) done named
      (b.rebuildWith schedule p entries previous touched) := by
  rcases exists_progress b p entries (reused? previous touched) schedule
    (stepBound p previous (b.start p entries).1.pending.length) with ⟨done, named, h⟩
  refine ⟨done, named, ?_⟩
  exact
    { roots := rfl
      modules := (modules_perm_lastState b p schedule entries previous touched).trans h.modules
      errors := by
        have hendless : (b.lastState schedule p entries previous touched).endless = [] := by
          simp [State.endless, hend]
        refine (List.mergeSort_perm _ _).trans ?_
        show ((b.lastState schedule p entries previous touched).errors
          ++ (b.lastState schedule p entries previous touched).endless).Perm _
        rw [hendless, List.append_nil]
        exact h.errors
      sorted := pairwise_sortByMessage _
      nodup := h.nodup_done
      mem_done := fun id => h.mem_done_iff hend
      nodup_named := h.nodup_named
      missing := h.missing
      asked := h.asked }

/-- Below an absolute root every build comes to its end. -/
theorem exists_outcome_of_isAbsolute (hroot : Path.isAbsolute b.lookup.root = true)
    (schedule : Schedule) (p : Project) (entries : EntryMap String)
    (previous : Option ModuleGraph) (touched : List ModuleId) :
    ∃ done named, Outcome b p entries (reused? previous touched) done named
      (b.rebuildWith schedule p entries previous touched) :=
  exists_outcome (isDone_run hroot schedule p entries previous _)

/-- A build without failures has come to its end. -/
theorem isDone_of_errors_eq_nil
    (h : (b.rebuildWith schedule p entries previous touched).errors = []) :
    (b.lastState schedule p entries previous touched).isDone = true := by
  have hnil : (b.lastState schedule p entries previous touched).errors
      ++ (b.lastState schedule p entries previous touched).endless = [] :=
    List.nil_perm.1 (h ▸ List.mergeSort_perm _ _)
  by_contra hend
  simp [State.endless, hend] at hnil

variable (b p schedule previous touched) in
/-- Every declared entry is an entry of the graph. -/
theorem exists_lookup_of_declared {e : String} (he : e ∈ entries.map (·.1)) :
    ∃ roots, (b.rebuildWith schedule p entries previous touched).graph.entries.lookup e =
      some roots := by
  -- an entry is listed even if none of its specifiers is found
  have hstart : ∀ (entries : EntryMap String) (made : State × EntryMap ModuleId),
      (entries.foldl (b.declareEntry p) made).2.map (·.1) =
        made.2.map (·.1) ++ entries.map (·.1) := by
    intro entries
    induction entries with
    | nil => simp
    | cons entry r ih =>
      intro made
      rw [List.foldl_cons, ih]
      simp [declareEntry]
  have hmem : e ∈ (EntryMap.ofList (b.start p entries).2).names := by
    refine EntryMap.mem_names_ofList ?_
    rw [start, hstart]
    exact he
  rcases List.mem_map.1 hmem with ⟨entry, hentry, rfl⟩
  exact Option.isSome_iff_exists.1 (List.lookup_isSome_iff.2 ⟨entry, hentry, by simp⟩)

/-! ## Builds without failures -/

namespace Outcome

variable {done : List ModuleId} {named : List (ModuleId × String)} {built : GraphBuild}

theorem contains_of_mem {carry : ModuleId → Option Module}
    (h : Outcome b p entries carry done named built) {m : Module}
    (hm : m ∈ standIns named ++ done.filterMap (b.met? p carry)) :
    built.graph.contains m.id = true :=
  List.any_eq_true.2 ⟨m, h.modules.mem_iff.2 hm, by simp⟩

/-- What there is a stand-in for is in the graph. -/
theorem contains_of_named {carry : ModuleId → Option Module}
    (h : Outcome b p entries carry done named built) {t : ModuleId} (ht : t ∈ named.map (·.1)) :
    built.graph.contains t = true := by
  rcases List.mem_map.1 ht with ⟨x, hx, rfl⟩
  exact Module.stub_id x.1 x.2 ▸
    h.contains_of_mem (List.mem_append_left _ (mem_standIns.2 ⟨x, hx, rfl⟩))

/-- Without failures, what is wanted is in the graph. -/
theorem contains_of_wanted (h : Outcome b p entries (reused? previous touched) done named built)
    (hok : built.errors = [])
    (hid : Wanted b p (reused? previous touched) (b.start p entries).1.pending id) :
    built.graph.contains id = true := by
  have hdone : id ∈ done := (h.mem_done id).2 hid
  -- the failures of every id are among those of the build
  have hnil : (b.start p entries).1.errors
      ++ done.flatMap (b.failures p (reused? previous touched)) = [] :=
    List.nil_perm.1 (hok ▸ h.errors)
  have hfailures : b.failures p (reused? previous touched) id = [] :=
    List.flatMap_eq_nil_iff.1 (List.append_eq_nil_iff.1 hnil).2 id hdone
  cases houtcome : b.outcome p (reused? previous touched) id with
  | error e => simp [failures, houtcome] at hfailures
  | ok found =>
    have hmet : b.met? p (reused? previous touched) id = some found.1 := by simp [met?, houtcome]
    have hcontains := h.contains_of_mem
      (List.mem_append_right _ (List.mem_filterMap.2 ⟨id, hdone, hmet⟩))
    rwa [id_of_met? hmet] at hcontains

end Outcome

end GraphBuilder

/-- What the modules and entries of a graph refer to is in the graph. Only a file with a name that
is kept for what could not be found can be missing as a root. -/
structure ModuleGraph.Linked (g : ModuleGraph) : Prop where
  targets : ∀ m ∈ g.modules, ∀ t ∈ m.targets, g.contains t = true
  roots : ∀ e ∈ g.entries, ∀ id ∈ e.2, id.isMissing = false → g.contains id = true

namespace GraphBuilder

variable {b : GraphBuilder} {p : Project} {schedule : Schedule} {entries : EntryMap String}
  {previous : Option ModuleGraph} {touched : List ModuleId}

/-- A graph that is built without failures holds all that it refers to. -/
theorem linked_of_errors_eq_nil
    (hok : (b.rebuildWith schedule p entries previous touched).errors = []) :
    (b.rebuildWith schedule p entries previous touched).graph.Linked := by
  rcases exists_outcome (isDone_of_errors_eq_nil hok) with ⟨done, named, h⟩
  constructor
  · intro m hm t ht
    -- stand-ins have no imports, so the module was taken over or read
    rcases List.mem_append.1 (h.modules.mem_iff.1 hm) with hm | hm
    · rcases mem_standIns.1 hm with ⟨x, -, rfl⟩
      simp [Module.targets] at ht
    · rcases List.mem_filterMap.1 hm with ⟨id, hid, hmet⟩
      cases hmissing : t.isMissing with
      | false => exact h.contains_of_wanted hok (((h.mem_done id).1 hid).target hmet ht hmissing)
      | true =>
        have hread := reused?_eq_none_of_missing hmet ht hmissing
        exact h.contains_of_named ((h.asked t).2 (.inr ⟨id, hid, hread, m, hmet, ht, hmissing⟩))
  · intro e he id hid hmissing
    rcases exists_started b p entries with ⟨_, hstart⟩
    rw [h.roots] at he
    have hlisted : id ∈ (b.start p entries).2.flatMap (·.2) :=
      List.mem_flatMap.2 ⟨e, EntryMap.mem_of_mem_ofList he, hid⟩
    rcases hstart.listed id hlisted with hpending | hseen
    · exact h.contains_of_wanted hok (.root hpending hmissing)
    · exact h.contains_of_named ((h.asked id).2 (.inl hseen))

end GraphBuilder

end Bindery
