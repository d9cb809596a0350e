import Bindery.Proofs.Graph.Entries
import Bindery.Proofs.Graph.Rebuild

/-!
# What the order of tasks changes

Which of the running tasks ends first is up to the schedule. The modules that are read, the entries,
the failures and the counts do not depend on it. One thing does: several specifiers can name the same
thing that is not there, each of them seen from its own importer, and the text of the stand-in is
that of the specifier which was met first. Failures that read the same can change places as well.

* `Names` : the specifiers that ask for a stand-in.
* `Told` : stand-ins say what some specifier asked for, and the other modules are counted.
* `build_any_order` : builds of the same files under any two schedules.
* `not_build_any_order` : a stand-in that says something else when tasks end in another order.
-/

namespace Bindery

namespace GraphBuilder

variable {b : GraphBuilder} {p : Project} {entries : EntryMap String} {schedule : Schedule}
  {s s' : State} {id : ModuleId} {m : Module}

/-! ## Specifiers that ask for a stand-in -/

/-- A specifier asks for a stand-in: that of an entry which is not found, or that of an import in a
module which is read. -/
inductive Names (b : GraphBuilder) (p : Project) (entries : EntryMap String) (t : ModuleId)
    (specifier : String) : Prop where
  | entry (hstub : b.stubUnresolved = true) (hspecifier : specifier ∈ specifiers entries)
      (hlost : b.entryId? p specifier = none) (ht : t = .missing specifier none)
  | target {id : ModuleId} {m : Module} {errors : List GraphError} {i : Import}
      (hid : Wanted b p (fun _ => none) (b.start p entries).1.pending id)
      (hload : b.load p id = .ok (m, errors)) (hi : i ∈ m.imports) (ht : i.resolved = some t)
      (hmissing : t.isMissing = true) (hspecifier : i.specifier = specifier)

/-- The modules that are not stand-ins. -/
def sources (modules : List Module) : List Module := modules.filter fun m => !m.isStub

theorem sources_append (modules more : List Module) :
    sources (modules ++ more) = sources modules ++ sources more :=
  List.filter_append modules more

/-- What is known of the modules of a build from nothing at every moment. -/
structure Told (b : GraphBuilder) (p : Project) (entries : EntryMap String) (s : State) : Prop where
  /-- Every stand-in says what some specifier asked for. -/
  stubs : ∀ m ∈ s.modules, m.isStub = true →
    ∃ specifier, Names b p entries m.id specifier ∧ m = .stub m.id specifier
  loaded : s.loaded = (sources s.modules).length
  reused : s.reused = 0

theorem sources_addStub {specifier : String} :
    sources (s.addStub id specifier).modules = sources s.modules := by
  unfold State.addStub
  split
  · rfl
  · rw [sources_append]
    simp [sources]

/-- Following imports adds stand-ins for what they name as missing, and no other module. -/
structure Adds (imports : List Import) (s s' : State) : Prop where
  stubs : ∀ m ∈ s'.modules, m ∈ s.modules ∨
    ∃ i ∈ imports, ∃ t, i.resolved = some t ∧ t.isMissing = true ∧ m = .stub t i.specifier
  sources : sources s'.modules = sources s.modules
  loaded : s'.loaded = s.loaded
  reused : s'.reused = s.reused

theorem adds_follow (s : State) (i : Import) : Adds [i] s (s.follow i) := by
  have hkeep : ∀ pending, s.follow i = { s with pending } → Adds [i] s (s.follow i) := by
    intro pending heq
    rw [heq]
    exact ⟨fun m hm => .inl hm, rfl, rfl, rfl⟩
  cases hi : i.resolved with
  | none => exact hkeep s.pending (by simp [State.follow, hi])
  | some t =>
    cases hmissing : t.isMissing with
    | true =>
      have heq : s.follow i = s.addStub t i.specifier := by simp [State.follow, hi, hmissing]
      obtain ⟨-, hloaded, hreused⟩ := addStub_counts s t i.specifier
      rw [heq]
      refine ⟨?_, sources_addStub, hloaded, hreused⟩
      intro m hm
      exact (mem_modules_addStub hm).imp_right fun hstub =>
        ⟨i, List.mem_singleton_self _, t, hi, hmissing, hstub⟩
    | false =>
      by_cases hseen : t ∈ s.seen
      · exact hkeep s.pending (by simp [State.follow, hi, hmissing, hseen])
      · exact hkeep (s.pending ++ [t]) (by simp [State.follow, hi, hmissing, hseen])

theorem adds_foldl_follow (imports : List Import) (s : State) :
    Adds imports s (imports.foldl State.follow s) := by
  induction imports generalizing s with
  | nil => exact ⟨fun m hm => .inl hm, rfl, rfl, rfl⟩
  | cons i r ih =>
    have hone := adds_follow s i
    have hrest := ih (s.follow i)
    refine ⟨?_, hrest.sources.trans hone.sources, hrest.loaded.trans hone.loaded,
      hrest.reused.trans hone.reused⟩
    intro m hm
    rcases hrest.stubs m hm with hm | ⟨j, hj, hstub⟩
    · rcases hone.stubs m hm with hm | ⟨j, hj, hstub⟩
      · exact .inl hm
      · exact .inr ⟨j, List.mem_singleton.1 hj ▸ List.mem_cons_self, hstub⟩
    · exact .inr ⟨j, List.mem_cons_of_mem i hj, hstub⟩

theorem isStub_of_load {errors : List GraphError} (h : b.load p id = .ok (m, errors)) :
    m.isStub = false := by
  rcases load_spec h with ⟨source, -, rfl, -⟩
  rfl

theorem told_start (b : GraphBuilder) (p : Project) (entries : EntryMap String) :
    Told b p entries (b.start p entries).1 := by
  have hstubs : ∀ m ∈ (b.start p entries).1.modules,
      ∃ specifier, Names b p entries m.id specifier ∧ m = .stub m.id specifier := by
    intro m hm
    obtain ⟨hstub, specifier, hspecifier, hlost, rfl⟩ := mem_modules_start hm
    exact ⟨specifier, .entry hstub hspecifier hlost rfl, rfl⟩
  have hentered := entered_start b p entries
  refine ⟨fun m hm _ => hstubs m hm, ?_, hentered.reused⟩
  have hnone : sources (b.start p entries).1.modules = [] := by
    refine List.filter_eq_nil_iff.2 ?_
    intro m hm
    obtain ⟨specifier, -, heq⟩ := hstubs m hm
    rw [heq]
    simp
  rw [hnone, hentered.loaded]
  rfl

/-- Every step of a build from nothing keeps what is known of its modules. -/
theorem Told.moves {done : List ModuleId} {named : List (ModuleId × String)}
    (h : Told b p entries s)
    (hprogress : Progress b p (fun _ => none) (b.start p entries).1 done named s)
    (hmove : Moves b p (fun _ => none) s s') : Told b p entries s' := by
  cases hmove with
  | skip hpending hknown => exact ⟨h.stubs, h.loaded, h.reused⟩
  | takeOver hpending hmissing hnew hcarry => cases hcarry
  | begin hpending hmissing hnew hcarry => exact ⟨h.stubs, h.loaded, h.reused⟩
  | @finish id others hpending hrunning =>
    have hid : id ∈ s.running := hrunning.mem_iff.2 List.mem_cons_self
    have hwanted := hprogress.wanted id (by simp [hid]) (hprogress.present id (by simp [hid]))
    cases hload : b.load p id with
    | error e => exact ⟨h.stubs, h.loaded, h.reused⟩
    | ok found =>
      rcases found with ⟨m, errors⟩
      have hread : m.isStub = false := isStub_of_load hload
      have hadds := adds_foldl_follow m.imports
        { s with running := others, finished := s.finished + 1, errors := s.errors ++ errors }
      constructor
      · intro x hx hstub
        rcases List.mem_append.1 hx with hx | hx
        · rcases hadds.stubs x hx with hx | ⟨i, hi, t, ht, hmissing, rfl⟩
          · exact h.stubs x hx hstub
          · exact ⟨i.specifier, .target hwanted hload hi ht hmissing rfl, rfl⟩
        · rw [List.mem_singleton.1 hx, hread] at hstub
          cases hstub
      · have hone : sources [m] = [m] := by simp [sources, hread]
        show _ + 1 = (sources (_ ++ [m])).length
        rw [sources_append, hadds.sources, hadds.loaded, hone, List.length_append]
        exact congrArg (· + 1) h.loaded
      · exact hadds.reused.trans h.reused

theorem told_lastState (b : GraphBuilder) (schedule : Schedule) (p : Project)
    (entries : EntryMap String) : Told b p entries (b.lastState schedule p entries none []) := by
  rcases exists_started b p entries with ⟨named, hstart⟩
  have hrun : ∃ done named, Progress b p (fun _ => none) (b.start p entries).1 done named
      (b.lastState schedule p entries none []) ∧
      Told b p entries (b.lastState schedule p entries none []) := by
    rw [lastState, reused?_none]
    refine run_induction (motive := fun s => ∃ done named,
      Progress b p (fun _ => none) (b.start p entries).1 done named s ∧ Told b p entries s) ?_ _ ?_
    · rintro s s' ⟨done, named, hprogress, htold⟩ hmove
      obtain ⟨done', named', hprogress'⟩ := hprogress.moves hmove
      exact ⟨done', named', hprogress', htold.moves hprogress hmove⟩
    · exact ⟨[], named, hstart.progress p _, told_start b p entries⟩
  exact hrun.choose_spec.choose_spec.2

/-! ## Two schedules -/

variable (b p entries schedule) in
/-- A build from nothing counts the modules that are not stand-ins. -/
theorem loaded_build : (b.rebuildWith schedule p entries none []).loaded =
    (sources (b.rebuildWith schedule p entries none []).graph.modules).length := by
  have hperm := modules_perm_lastState b p schedule entries none []
  rw [sources, (hperm.filter _).length_eq]
  exact (told_lastState b schedule p entries).loaded

/-- The stand-ins of two builds say the same when every id is asked for by one specifier only. -/
theorem sameStandIns_of_names (b : GraphBuilder) (p : Project) (entries : EntryMap String)
    (h : ∀ t specifier specifier', Names b p entries t specifier → Names b p entries t specifier' →
      specifier = specifier') (schedule schedule' : Schedule) :
    SameStandIns (b.rebuildWith schedule p entries none []).graph
      (b.rebuildWith schedule' p entries none []).graph := by
  intro m hm m' hm' hstub hstub' hid
  have hmem := (modules_perm_lastState b p schedule entries none []).mem_iff.1 hm
  have hmem' := (modules_perm_lastState b p schedule' entries none []).mem_iff.1 hm'
  obtain ⟨specifier, hnames, heq⟩ := (told_lastState b schedule p entries).stubs m hmem hstub
  obtain ⟨specifier', hnames', heq'⟩ :=
    (told_lastState b schedule' p entries).stubs m' hmem' hstub'
  rw [heq, heq', hid, h _ _ _ hnames (hid ▸ hnames')]

namespace Outcome

variable {done done' : List ModuleId} {named named' : List (ModuleId × String)}
  {built built' : GraphBuild}

/-- The modules of a build that are not stand-ins are those that it has read. -/
theorem sources_perm (h : Outcome b p entries (fun _ => none) done named built) :
    (sources built.graph.modules).Perm (done.filterMap (b.met? p fun _ => none)) := by
  have hstandIns : sources (standIns named) = [] := by
    refine List.filter_eq_nil_iff.2 ?_
    intro m hm
    rcases mem_standIns.1 hm with ⟨x, -, rfl⟩
    simp
  have hmet : sources (done.filterMap (b.met? p fun _ => none)) =
      done.filterMap (b.met? p fun _ => none) := by
    refine List.filter_eq_self.2 ?_
    intro m hm
    rcases List.mem_filterMap.1 hm with ⟨id, -, hmet⟩
    rcases met?_cases hmet with hcarry | ⟨-, errors, hload⟩
    · cases hcarry
    · simp [isStub_of_load hload]
  have hperm := h.modules.filter fun m => !m.isStub
  rw [List.filter_append] at hperm
  change (sources built.graph.modules).Perm (sources (standIns named) ++ sources _) at hperm
  rwa [hstandIns, hmet, List.nil_append] at hperm

/-- Modules that are read are the same in all builds of the same files. -/
theorem sources_eq (h : Outcome b p entries (fun _ => none) done named built)
    (h' : Outcome b p entries (fun _ => none) done' named' built') :
    sources built.graph.modules = sources built'.graph.modules := by
  have hdone : done.Perm done' := h.done_perm h' fun _ _ => rfl
  have hperm := h.sources_perm.trans ((hdone.filterMap _).trans h'.sources_perm.symm)
  exact Module.eq_of_perm hperm (built.graph.inOrder.filter _) (built'.graph.inOrder.filter _)

/-- The same ids are there in all builds of the same files. -/
theorem ids_eq (h : Outcome b p entries (fun _ => none) done named built)
    (h' : Outcome b p entries (fun _ => none) done' named' built') :
    built.graph.ids = built'.graph.ids := by
  have hdone : done.Perm done' := h.done_perm h' fun _ _ => rfl
  have hnamed : ∀ t, t ∈ named.map (·.1) ↔ t ∈ named'.map (·.1) := by
    intro t
    rw [h.asked, h'.asked]
    simp only [hdone.mem_iff]
  refine ModuleId.eq_of_mem_iff (List.pairwise_map.2 built.graph.inOrder)
    (List.pairwise_map.2 built'.graph.inOrder) ?_
  intro id
  rw [ModuleGraph.ids, ModuleGraph.ids, (h.modules.map _).mem_iff, (h'.modules.map _).mem_iff,
    List.map_append, List.map_append, map_id_standIns, map_id_standIns, List.mem_append,
    List.mem_append, hnamed]
  exact or_congr_right ((hdone.filterMap _).map _).mem_iff

theorem errors_perm (h : Outcome b p entries (fun _ => none) done named built)
    (h' : Outcome b p entries (fun _ => none) done' named' built') :
    built.errors.Perm built'.errors := by
  have hdone : done.Perm done' := h.done_perm h' fun _ _ => rfl
  exact h.errors.trans (((hdone.flatMap_right _).append_left _).trans h'.errors.symm)

end Outcome

/-- Failures in order of their messages are told in the same order when no two of them read the
same. -/
theorem eq_of_perm_of_messages {errors errors' : List GraphError} (h : errors.Perm errors')
    (hsorted : errors.Pairwise fun e e' => e.message ≤ e'.message)
    (hsorted' : errors'.Pairwise fun e e' => e.message ≤ e'.message)
    (hdistinct : ∀ e ∈ errors, ∀ e' ∈ errors, e.message = e'.message → e = e') :
    errors = errors' := by
  refine h.eq_of_pairwise ?_ hsorted hsorted'
  intro e e' he he' hle hle'
  exact hdistinct e he e' (h.mem_iff.2 he') (String.le_antisymm hle hle')

/-- Builds of the same files under any two schedules have the same entries and ids, the same modules
but for stand-ins, the same counts and the same failures, whose messages are told in the same order.
Their graphs are the same exactly when their stand-ins say the same, and so whenever no id is asked
for by two specifiers; their failures are told in the same order whenever no two read the same. -/
theorem build_any_order (b : GraphBuilder) (hroot : Path.isAbsolute b.lookup.root = true)
    (p : Project) (entries : EntryMap String) (schedule schedule' : Schedule)
    {built built' : GraphBuild} (hbuilt : b.rebuildWith schedule p entries none [] = built)
    (hbuilt' : b.rebuildWith schedule' p entries none [] = built') :
    built.graph.entries = built'.graph.entries ∧ built.graph.ids = built'.graph.ids ∧
      sources built.graph.modules = sources built'.graph.modules ∧
      built.loaded = built'.loaded ∧ built.errors.Perm built'.errors ∧
      built.errors.map GraphError.message = built'.errors.map GraphError.message ∧
      (built.graph = built'.graph ↔ SameStandIns built.graph built'.graph) ∧
      ((∀ t specifier specifier', Names b p entries t specifier →
        Names b p entries t specifier' → specifier = specifier') → built.graph = built'.graph) ∧
      ((∀ e ∈ built.errors, ∀ e' ∈ built.errors, e.message = e'.message → e = e') →
        built.errors = built'.errors) := by
  have hloaded := loaded_build b p entries schedule
  have hloaded' := loaded_build b p entries schedule'
  have hnames := fun h => sameStandIns_of_names b p entries h schedule schedule'
  rcases exists_outcome_of_isAbsolute hroot schedule p entries none [] with ⟨done, named, h⟩
  rcases exists_outcome_of_isAbsolute hroot schedule' p entries none [] with ⟨done', named', h'⟩
  rw [reused?_none] at h h'
  rw [hbuilt] at hloaded hnames h
  rw [hbuilt'] at hloaded' hnames h'
  have hsources := h.sources_eq h'
  have hgraph : SameStandIns built.graph built'.graph → built.graph = built'.graph := fun hsame =>
    (h.sameSnapshot h' (fun _ _ => rfl) (fun _ _ _ => Iff.rfl) hsame).graph
  refine ⟨h.roots.trans h'.roots.symm, h.ids_eq h', hsources, ?_, h.errors_perm h',
    messages_eq_of_perm (h.errors_perm h') h.sorted h'.sorted, ⟨?_, hgraph⟩,
    fun hone => hgraph (hnames hone),
    eq_of_perm_of_messages (h.errors_perm h') h.sorted h'.sorted⟩
  · rw [hloaded, hloaded', hsources]
  · intro heq m hm m' hm' _ _ hid
    rw [ModuleGraph.eq_of_id_eq (heq ▸ hm) hm' hid]

/-! ## Two scripts that miss the same -/

/-- Builds below `/app` with stand-ins. -/
def stubbing : GraphBuilder :=
  { lookup := { root := "/app", extensions := [".js"] }, stubUnresolved := true }

/-- Two scripts in different directories that import the same file, which is not there. -/
def twice : Project :=
  { files := ⟨[(["app", "a.js"], .file "import './x';\n".toUTF8),
      (["app", "lib", "b.js"], .file "import '../x';\n".toUTF8)]⟩
    base := "/app" }

/-- Of two tasks the one that was started last ends first. -/
def lastFirst : Schedule := fun _ => 1

/-- What the scripts come to when tasks end in some order. -/
def missed (schedule : Schedule) : GraphBuild :=
  stubbing.rebuildWith schedule twice [("main", ["a.js", "lib/b.js"])] none []

/-- Both orders give the same three ids and tell of both failures, in the same order. -/
theorem build_any_order_missed :
    Path.isAbsolute stubbing.lookup.root = true ∧
      (missed .inOrder).graph.ids = (missed lastFirst).graph.ids ∧
      (missed .inOrder).graph.ids.length = 3 ∧
      (missed .inOrder).errors = (missed lastFirst).errors ∧
      (missed .inOrder).errors.length = 2 := by
  have hmissed : ∀ schedule, stubbing.rebuildWith schedule twice [("main", ["a.js", "lib/b.js"])]
      none [] = missed schedule := fun _ => rfl
  obtain ⟨-, hids, -, -, -, -, -, -, herrors⟩ := build_any_order stubbing (by decide) twice
    [("main", ["a.js", "lib/b.js"])] .inOrder lastFirst (hmissed .inOrder) (hmissed lastFirst)
  -- the failures are looked at before they are sorted
  let last := stubbing.lastState .inOrder twice [("main", ["a.js", "lib/b.js"])] none []
  have hperm : (missed .inOrder).errors.Perm (last.errors ++ last.endless) :=
    List.mergeSort_perm _ _
  have htwo : (last.errors ++ last.endless).length = 2 ∧
      ∀ e ∈ last.errors ++ last.endless, ∀ e' ∈ last.errors ++ last.endless,
        e.message = e'.message → e = e' := by decide +kernel
  refine ⟨by decide, hids, by decide +kernel, herrors ?_, hperm.length_eq.trans htwo.1⟩
  intro e he e' he'
  exact htwo.2 e (hperm.mem_iff.1 he) e' (hperm.mem_iff.1 he')

/-- The stand-in that both scripts ask for has the specifier of the one that was read first. -/
theorem not_build_any_order :
    ¬∀ schedule schedule', (missed schedule).graph = (missed schedule').graph := by
  intro hsame
  have hfirst : ((missed .inOrder).graph.module? ⟨"missing:x"⟩).map (·.source) =
      some (Module.stubText "./x").toUTF8 := by decide +kernel
  have hlast : ((missed lastFirst).graph.module? ⟨"missing:x"⟩).map (·.source) =
      some (Module.stubText "../x").toUTF8 := by decide +kernel
  rw [hsame .inOrder lastFirst, hlast] at hfirst
  exact absurd hfirst (by decide)

end GraphBuilder

end Bindery
