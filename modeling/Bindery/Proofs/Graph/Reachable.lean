import Bindery.Proofs.Graph.Naming
import Bindery.Proofs.Graph.Order

/-!
# A build holds what can be reached

When the names of all files lead back to them, a build is described by lookups alone. Its graph holds
the ids that chains of imports lead to from the entries, with a stand-in for each thing that a member
asks for and that is not there. Each file that is reached is read once, whatever the imports look
like and in whatever order the tasks come to their end, and each lookup that finds nothing is told
of once.

* `Reachable` : what can be reached, as the least set that lookups lead to.
* `Found` : ids of files that are there; `Found.load_eq` : what reading them gives.
* `tasks` : the ids whose files a build reads; `exists_progress_tasks` : they are what is done.
* `build_reaches` : the graph, the files that are read and the failures of a build.
-/

namespace Bindery

namespace GraphBuilder

variable {b : GraphBuilder} {p : Project} {entries : EntryMap String} {schedule : Schedule}
  {s s' : State} {id t : ModuleId} {m : Module} {path specifier : String}

/-! ## What can be reached -/

/-- The imports in the file of an id, as they stand in it. -/
def importsOf (b : GraphBuilder) (p : Project) (id : ModuleId) : List Import :=
  match p.read? (id.toPath b.lookup.root) with
  | some source => b.written id source
  | none => []

/-- What the specifier of an entry means. -/
def entryMeaning? (b : GraphBuilder) (p : Project) (specifier : String) : Option ModuleId :=
  (b.lookup.resolve? p specifier none).bind (ModuleId.ofPath? b.lookup.root)

/-- What can be reached: what entries mean, what the imports of members mean and, with stand-ins,
what entries and imports of members ask for in vain. Stand-ins have no imports. -/
inductive Reachable (b : GraphBuilder) (p : Project) (entries : EntryMap String) :
    ModuleId → Prop where
  | entry {specifier : String} {t : ModuleId} (hspecifier : specifier ∈ specifiers entries)
      (ht : b.entryMeaning? p specifier = some t) : Reachable b p entries t
  | target {id t : ModuleId} {i : Import} (hid : Reachable b p entries id)
      (hpresent : id.isMissing = false) (hi : i ∈ b.importsOf p id)
      (ht : b.meaning? p (id.toPath b.lookup.root) i.specifier = some t) : Reachable b p entries t
  | lostEntry {specifier : String} (hstub : b.stubUnresolved = true)
      (hspecifier : specifier ∈ specifiers entries)
      (hlost : b.lookup.resolve? p specifier none = none) :
      Reachable b p entries (.missing specifier none)
  | lostTarget {id : ModuleId} {i : Import} (hstub : b.stubUnresolved = true)
      (hid : Reachable b p entries id) (hpresent : id.isMissing = false)
      (hi : i ∈ b.importsOf p id)
      (hlost : b.lookup.resolve? p i.specifier (some (id.toPath b.lookup.root)) = none) :
      Reachable b p entries (.missing i.specifier (some id))

/-- The failures of the entries. -/
def lostEntries (b : GraphBuilder) (p : Project) (entries : EntryMap String) : List GraphError :=
  ((specifiers entries).filter fun x => (b.lookup.resolve? p x none).isNone).map fun x =>
    .unresolved x none

/-- The failures of the imports in the file of an id. -/
def lostTargets (b : GraphBuilder) (p : Project) (id : ModuleId) : List GraphError :=
  b.unresolved p id (id.toPath b.lookup.root) (b.importsOf p id)

/-- The id of a file that is there. -/
def Found (b : GraphBuilder) (p : Project) (id : ModuleId) : Prop :=
  ∃ path, Path.isAbsolute path = true ∧ p.isFile path = true ∧
    ModuleId.ofPath? b.lookup.root path = some id

/-- The names of all files lead back to them. -/
def WellNamed (b : GraphBuilder) (p : Project) : Prop :=
  ∀ f ∈ p.files.files, ModuleId.Nameable b.lookup.root f.1

instance : Decidable (b.WellNamed p) :=
  inferInstanceAs (Decidable (∀ f ∈ p.files.files, ModuleId.Nameable b.lookup.root f.1))

/-! ## Imports and their targets -/

/-- Looking imports up succeeds when what is found has an id. -/
theorem resolveImports_of_ids (id : ModuleId) (path : String) {imports : List Import}
    (hfresh : ∀ i ∈ imports, i.resolved = none)
    (h : ∀ i ∈ imports, ∀ file, b.lookup.resolve? p i.specifier (some path) = some file →
      ∃ target, ModuleId.ofPath? b.lookup.root file = some target) :
    b.resolveImports p id path imports =
      some (imports.map (b.linked p id path), b.unresolved p id path imports) := by
  have hsome : ∀ imports : List Import,
      (∀ i ∈ imports, ∀ file, b.lookup.resolve? p i.specifier (some path) = some file →
        ∃ target, ModuleId.ofPath? b.lookup.root file = some target) →
      ∃ found, b.resolveImports p id path imports = some found := by
    intro imports
    induction imports with
    | nil => exact fun _ => ⟨_, rfl⟩
    | cons i r ih =>
      intro h
      obtain ⟨found, hfound⟩ := ih fun j hj => h j (List.mem_cons_of_mem _ hj)
      unfold resolveImports
      split
      · next file hfile =>
        obtain ⟨target, htarget⟩ := h i List.mem_cons_self file hfile
        exact ⟨_, by rw [htarget, hfound]; rfl⟩
      · exact ⟨_, by rw [hfound]; rfl⟩
  obtain ⟨⟨done, errors⟩, hdone⟩ := hsome imports h
  obtain ⟨rfl, rfl⟩ := resolveImports_eq hfresh hdone
  exact hdone

/-- The target of an import that is there is what it means. -/
theorem target?_eq_some_present (hpresent : t.isMissing = false) :
    b.target? p id (id.toPath b.lookup.root) specifier = some t ↔
      b.meaning? p (id.toPath b.lookup.root) specifier = some t := by
  unfold target?
  cases hfile : b.lookup.resolve? p specifier (some (id.toPath b.lookup.root)) with
  | some file => simp
  | none =>
    have hnone : b.meaning? p (id.toPath b.lookup.root) specifier = none := by
      simp [meaning?, hfile]
    rw [hnone, if_neg (by simp)]
    constructor
    · intro h
      split at h
      · obtain rfl := Option.some.inj h
        rw [ModuleId.isMissing_missing] at hpresent
        cases hpresent
      · cases h
    · intro h
      cases h

theorem mem_targets_readFrom {source : ByteArray} :
    t ∈ (b.readFrom p id source).targets ↔
      ∃ i ∈ b.written id source,
        b.target? p id (id.toPath b.lookup.root) i.specifier = some t := by
  rw [Module.mem_targets, readFrom_imports]
  constructor
  · rintro ⟨i, hi, hit⟩
    obtain ⟨j, hj, rfl⟩ := List.mem_map.1 hi
    exact ⟨j, hj, by rwa [linked_resolved] at hit⟩
  · rintro ⟨j, hj, hjt⟩
    exact ⟨_, List.mem_map_of_mem hj, by rwa [linked_resolved]⟩

/-! ## Files and their ids -/

section

variable (hroot : Path.isAbsolute b.lookup.root = true) (hnamed : b.WellNamed p)

include hroot hnamed

/-- A file has an id, which leads back to it. -/
theorem exists_id_of_isFile (habsolute : Path.isAbsolute path = true)
    (hfile : p.isFile path = true) :
    ∃ id, ModuleId.ofPath? b.lookup.root path = some id ∧ id.isMissing = false ∧
      p.locate (id.toPath b.lookup.root) = p.locate path := by
  obtain ⟨bytes, hbytes⟩ := Option.isSome_iff_exists.1 hfile
  have hnameable := hnamed _ (exists_mem_files_of_read? hbytes)
  rw [ModuleId.ofPath?_eq_ofLocation? habsolute _ p.base]
  exact ModuleId.exists_ofLocation? hroot (Location.plain_ofPath p.base path) hnameable p.base

/-- The id of a file that is there leads back to it, and is not that of a stand-in. -/
theorem Found.spec (h : b.Found p id) :
    id.isMissing = false ∧ (∃ source, p.read? (id.toPath b.lookup.root) = some source) ∧
      ModuleId.ofLocation? b.lookup.root (p.locate (id.toPath b.lookup.root)) = some id := by
  obtain ⟨path, habsolute, hfile, hid⟩ := h
  obtain ⟨id', hid', hpresent, hback⟩ := exists_id_of_isFile hroot hnamed habsolute hfile
  obtain rfl : id' = id := Option.some.inj (hid'.symm.trans hid)
  refine ⟨hpresent, ?_, ?_⟩
  · have hread : p.files.isFile (p.locate (id'.toPath b.lookup.root)) = true := by
      rw [hback]
      exact hfile
    exact Option.isSome_iff_exists.1 hread
  · rw [hback, Project.locate, ← ModuleId.ofPath?_eq_ofLocation? habsolute]
    exact hid

/-- What a lookup finds has an id. -/
theorem exists_id_of_resolve? {importer : Option String} {file : String}
    (himporter : ∀ path ∈ importer, Path.isAbsolute path = true)
    (h : b.lookup.resolve? p specifier importer = some file) :
    ∃ id, ModuleId.ofPath? b.lookup.root file = some id ∧ b.Found p id := by
  obtain ⟨hfile, habsolute⟩ := Lookup.resolve?_spec hroot himporter h
  obtain ⟨id, hid, -, -⟩ := exists_id_of_isFile hroot hnamed habsolute hfile
  exact ⟨id, hid, file, habsolute, hfile, hid⟩

/-- Reading the file of an id succeeds, and tells of the imports that are not found. -/
theorem Found.load_eq (h : b.Found p id) :
    ∃ source, b.importsOf p id = b.written id source ∧
      b.load p id = .ok (b.readFrom p id source, b.lostTargets p id) := by
  obtain ⟨-, ⟨source, hsource⟩, -⟩ := h.spec hroot hnamed
  have hwritten : b.importsOf p id = b.written id source := by simp [importsOf, hsource]
  have hfresh : ∀ i ∈ b.written id source, i.resolved = none :=
    fun i hi => Module.resolved_of_mem_imports_ofSource hi
  have hresolve := resolveImports_of_ids id (id.toPath b.lookup.root) hfresh (by
    intro i _ file hfile
    obtain ⟨target, htarget, -⟩ :=
      exists_id_of_resolve? hroot hnamed (isAbsolute_importer hroot id) hfile
    exact ⟨target, htarget⟩)
  refine ⟨source, hwritten, ?_⟩
  rw [lostTargets, hwritten]
  unfold written at hresolve ⊢
  simp only [load, hsource, hresolve]
  rfl

/-- What an import means is a file that is there. -/
theorem found_of_meaning? (h : b.meaning? p (id.toPath b.lookup.root) specifier = some t) :
    b.Found p t := by
  obtain ⟨file, hfile, ht⟩ := Option.bind_eq_some_iff.1 h
  obtain ⟨t', ht', hfound⟩ :=
    exists_id_of_resolve? hroot hnamed (isAbsolute_importer hroot id) hfile
  obtain rfl : t' = t := Option.some.inj (ht'.symm.trans ht)
  exact hfound

/-- What an entry means is a file that is there. -/
theorem found_of_entryMeaning? (h : b.entryMeaning? p specifier = some t) : b.Found p t := by
  obtain ⟨file, hfile, ht⟩ := Option.bind_eq_some_iff.1 h
  obtain ⟨t', ht', hfound⟩ := exists_id_of_resolve? hroot hnamed (by simp) hfile
  obtain rfl : t' = t := Option.some.inj (ht'.symm.trans ht)
  exact hfound

/-! ## Lookups and what a build makes of them -/

/-- An entry comes to what it means, or fails because nothing is found. -/
theorem resolveEntry_eq (specifier : String) :
    b.entryId? p specifier = b.entryMeaning? p specifier ∧
      b.entryFailure? p specifier =
        if (b.lookup.resolve? p specifier none).isNone then some (.unresolved specifier none)
        else none := by
  unfold entryId? entryFailure? entryMeaning? resolveEntry
  cases hfile : b.lookup.resolve? p specifier none with
  | none => exact ⟨rfl, rfl⟩
  | some file =>
    obtain ⟨id, hid, -⟩ := exists_id_of_resolve? hroot hnamed (by simp) hfile
    simp [hid, Except.toOption]

/-- The failures before modules are loaded are those of the entries. -/
theorem errors_start_eq_lostEntries (entries : EntryMap String) :
    (b.start p entries).1.errors = b.lostEntries p entries := by
  rw [errors_start, lostEntries, ← List.filterMap_eq_map, List.filterMap_filter]
  refine List.filterMap_congr ?_
  intro specifier _
  exact (resolveEntry_eq hroot hnamed specifier).2

theorem entryId?_eq_none_iff :
    b.entryId? p specifier = none ↔ b.lookup.resolve? p specifier none = none := by
  rw [(resolveEntry_eq hroot hnamed specifier).1, entryMeaning?]
  cases hfile : b.lookup.resolve? p specifier none with
  | none => simp
  | some file =>
    obtain ⟨id, hid, -⟩ := exists_id_of_resolve? hroot hnamed (by simp) hfile
    simp [hid]

/-- The target of an import that is not there is a stand-in. -/
theorem target?_eq_some_missing (hmissing : t.isMissing = true) :
    b.target? p id (id.toPath b.lookup.root) specifier = some t ↔
      b.stubUnresolved = true ∧
        b.lookup.resolve? p specifier (some (id.toPath b.lookup.root)) = none ∧
        t = .missing specifier (some id) := by
  unfold target?
  cases hfile : b.lookup.resolve? p specifier (some (id.toPath b.lookup.root)) with
  | some file =>
    rw [if_pos (by simp)]
    constructor
    · intro h
      have hpresent := ((found_of_meaning? hroot hnamed h).spec hroot hnamed).1
      rw [hmissing] at hpresent
      cases hpresent
    · rintro ⟨-, hnone, -⟩
      cases hnone
  | none =>
    rw [if_neg (by simp)]
    split
    · next hstub => simp [hstub, eq_comm]
    · next hstub => simp [hstub]

theorem met?_of_found (h : b.Found p id) : ∃ source,
    b.importsOf p id = b.written id source ∧
      b.met? p (fun _ => none) id = some (b.readFrom p id source) ∧
      b.failures p (fun _ => none) id = b.lostTargets p id := by
  obtain ⟨source, hwritten, hload⟩ := h.load_eq hroot hnamed
  exact ⟨source, hwritten, by simp [met?, outcome, hload], by simp [failures, outcome, hload]⟩

/-- Ids of files that are there add the failures of the imports in these files. -/
theorem flatMap_failures {done : List ModuleId} (h : ∀ id ∈ done, b.Found p id) :
    done.flatMap (b.failures p fun _ => none) = done.flatMap (b.lostTargets p) := by
  refine List.flatMap_congr ?_
  intro id hid
  obtain ⟨source, -, -, hsame⟩ := met?_of_found hroot hnamed (h id hid)
  exact hsame

/-! ## What a build takes up -/

/-- What a build takes up is the id of a file that is there. -/
theorem found_of_wanted (h : Wanted b p (fun _ => none) (b.start p entries).1.pending id) :
    b.Found p id := by
  cases h with
  | root hid hmissing =>
    rw [pending_start] at hid
    obtain ⟨specifier, -, hspecifier⟩ := List.mem_filterMap.1 hid
    rw [(resolveEntry_eq hroot hnamed specifier).1] at hspecifier
    exact found_of_entryMeaning? hroot hnamed hspecifier
  | target _ hm ht hmissing =>
    obtain hcarry | ⟨-, errors, hload⟩ := met?_cases hm
    · cases hcarry
    · obtain ⟨source, -, rfl, -⟩ := load_spec hload
      obtain ⟨i, -, hi⟩ := mem_targets_readFrom.1 ht
      rw [target?_eq_some_present hmissing] at hi
      exact found_of_meaning? hroot hnamed hi

/-- What a build takes up is what can be reached and is there. -/
theorem wanted_iff :
    Wanted b p (fun _ => none) (b.start p entries).1.pending id ↔
      b.Reachable p entries id ∧ id.isMissing = false := by
  constructor
  · intro h
    refine ⟨?_, isMissing_of_wanted h⟩
    -- along the chain of imports by which the id is met
    induction h with
    | root hid hmissing =>
      rw [pending_start] at hid
      obtain ⟨specifier, hspecifier, hfound⟩ := List.mem_filterMap.1 hid
      rw [(resolveEntry_eq hroot hnamed specifier).1] at hfound
      exact .entry hspecifier hfound
    | target hid hm ht hmissing ih =>
      have hfound := found_of_wanted hroot hnamed hid
      obtain ⟨source, hwritten, hmet, -⟩ := met?_of_found hroot hnamed hfound
      obtain rfl := Option.some.inj (hmet.symm.trans hm)
      obtain ⟨i, hi, htarget⟩ := mem_targets_readFrom.1 ht
      rw [target?_eq_some_present hmissing] at htarget
      exact .target ih (isMissing_of_wanted hid) (hwritten ▸ hi) htarget
  · rintro ⟨h, hmissing⟩
    induction h with
    | entry hspecifier ht =>
      refine .root ?_ hmissing
      rw [pending_start]
      refine List.mem_filterMap.2 ⟨_, hspecifier, ?_⟩
      rw [(resolveEntry_eq hroot hnamed _).1]
      exact ht
    | target hid hpresent hi ht ih =>
      have hwanted := ih hpresent
      have hfound := found_of_wanted hroot hnamed hwanted
      obtain ⟨source, hwritten, hmet, -⟩ := met?_of_found hroot hnamed hfound
      refine hwanted.target hmet (mem_targets_readFrom.2 ⟨_, hwritten ▸ hi, ?_⟩) hmissing
      exact (target?_eq_some_present hmissing).2 ht
    | lostEntry hstub hspecifier hlost =>
      rw [ModuleId.isMissing_missing] at hmissing
      cases hmissing
    | lostTarget hstub hid hpresent hi hlost ih =>
      rw [ModuleId.isMissing_missing] at hmissing
      cases hmissing

/-- The stand-ins of a build are what can be reached and is not there. -/
theorem asked_iff {done : List ModuleId}
    (hdone : ∀ id, id ∈ done ↔ Wanted b p (fun _ => none) (b.start p entries).1.pending id) :
    (t ∈ (b.start p entries).1.seen ∨ ∃ id ∈ done, AsksFor b p (fun _ => none) id t) ↔
      b.Reachable p entries t ∧ t.isMissing = true := by
  constructor
  · rintro (ht | ⟨id, hid, -, m, hm, ht, hmissing⟩)
    · obtain ⟨hstub, specifier, hspecifier, hlost, rfl⟩ := mem_seen_start.1 ht
      have hnone := (entryId?_eq_none_iff hroot hnamed).1 hlost
      exact ⟨.lostEntry hstub hspecifier hnone, ModuleId.isMissing_missing _ _⟩
    · have hwanted := (hdone id).1 hid
      obtain ⟨hreachable, hpresent⟩ := (wanted_iff hroot hnamed).1 hwanted
      have hfound := found_of_wanted hroot hnamed hwanted
      obtain ⟨source, hwritten, hmet, -⟩ := met?_of_found hroot hnamed hfound
      obtain rfl := Option.some.inj (hmet.symm.trans hm)
      obtain ⟨i, hi, htarget⟩ := mem_targets_readFrom.1 ht
      obtain ⟨hstub, hlost, rfl⟩ := (target?_eq_some_missing hroot hnamed hmissing).1 htarget
      exact ⟨.lostTarget hstub hreachable hpresent (hwritten ▸ hi) hlost, hmissing⟩
  · rintro ⟨h, hmissing⟩
    cases h with
    | entry hspecifier ht =>
      have hpresent := ((found_of_entryMeaning? hroot hnamed ht).spec hroot hnamed).1
      rw [hmissing] at hpresent
      cases hpresent
    | target hid hpresent hi ht =>
      have hpresent := ((found_of_meaning? hroot hnamed ht).spec hroot hnamed).1
      rw [hmissing] at hpresent
      cases hpresent
    | @lostEntry specifier hstub hspecifier hlost =>
      exact .inl (mem_seen_start.2
        ⟨hstub, specifier, hspecifier, (entryId?_eq_none_iff hroot hnamed).2 hlost, rfl⟩)
    | @lostTarget id i hstub hid hpresent hi hlost =>
      have hwanted := (wanted_iff hroot hnamed).2 ⟨hid, hpresent⟩
      have hfound := found_of_wanted hroot hnamed hwanted
      obtain ⟨source, hwritten, hmet, -⟩ := met?_of_found hroot hnamed hfound
      refine .inr ⟨id, (hdone id).2 hwanted, rfl, _, hmet, ?_, hmissing⟩
      refine mem_targets_readFrom.2 ⟨i, hwritten ▸ hi, ?_⟩
      exact (target?_eq_some_missing hroot hnamed hmissing).2 ⟨hstub, hlost, rfl⟩

end

/-! ## The files that are read -/

/-- The id whose task a step brings to its end, if it does. -/
def finishing? (schedule : Schedule) (s : State) : Option ModuleId :=
  if s.pending.isEmpty then (pickAt (schedule s.finished) s.running).map (·.1) else none

/-- The ids whose tasks come to their end along a build from nothing, in the order in which they do.
The end of a task is where its file is read. -/
def tasks (b : GraphBuilder) (p : Project) (schedule : Schedule) : (fuel : Nat) → State →
    List ModuleId
  | 0, _ => []
  | fuel + 1, s =>
    match b.step p (fun _ => none) schedule s with
    | some s' => (finishing? schedule s).toList ++ tasks b p schedule fuel s'
    | none => []

variable {start : State} {done : List ModuleId} {named : List (ModuleId × String)}

theorem step_of_pending_eq_nil {carry : ModuleId → Option Module} (h : s.pending = []) :
    b.step p carry schedule s = (pickAt (schedule s.finished) s.running).map fun picked =>
      { s with running := picked.2, finished := s.finished + 1 }.finish (b.load p picked.1) := by
  unfold GraphBuilder.step
  split
  · next hpending =>
    rw [h] at hpending
    cases hpending
  · rfl

/-- What is done after a step is what was done before it, and the id whose task it ends. -/
theorem Progress.step (h : Progress b p (fun _ => none) start done named s)
    (hstep : b.step p (fun _ => none) schedule s = some s') :
    ∃ named', Progress b p (fun _ => none) start
      ((finishing? schedule s).toList ++ done) named' s' := by
  cases hpending : s.pending with
  | cons id rest =>
    have hnone : finishing? schedule s = none := by simp [finishing?, hpending]
    rw [hnone]
    cases moves_of_step hstep with
    | skip hpending' hknown => exact ⟨named, h.skip hpending' hknown⟩
    | takeOver hpending' hmissing hnew hcarry => cases hcarry
    | begin hpending' hmissing hnew hcarry => exact ⟨named, h.begin hpending' hmissing hnew hcarry⟩
    | finish hnil hrunning =>
      rw [hpending] at hnil
      cases hnil
  | nil =>
    rw [step_of_pending_eq_nil hpending] at hstep
    obtain ⟨⟨id, others⟩, hpick, rfl⟩ := Option.map_eq_some_iff.1 hstep
    have hsome : finishing? schedule s = some id := by simp [finishing?, hpending, hpick]
    rw [hsome]
    exact h.finish hpending (perm_of_pickAt hpick)

/-- What is done when a build stops is what its tasks have read. -/
theorem exists_progress_tasks (schedule : Schedule) (fuel : Nat)
    (h : Progress b p (fun _ => none) start done named s) :
    ∃ done' named', done'.Perm (b.tasks p schedule fuel s ++ done) ∧
      Progress b p (fun _ => none) start done' named'
        (b.run p (fun _ => none) schedule fuel s) := by
  induction fuel generalizing s done named with
  | zero => exact ⟨done, named, .refl _, h⟩
  | succ n ih =>
    unfold run tasks
    cases hstep : b.step p (fun _ => none) schedule s with
    | none => exact ⟨done, named, .refl _, h⟩
    | some s' =>
      obtain ⟨named₁, h₁⟩ := h.step hstep
      obtain ⟨done', named', hperm, h'⟩ := ih h₁
      refine ⟨done', named', hperm.trans ?_, h'⟩
      rw [← List.append_assoc]
      exact List.perm_append_comm.append_right done

/-- The files that a build from nothing reads, in the order in which its tasks come to their end. -/
def filesRead (b : GraphBuilder) (schedule : Schedule) (p : Project) (entries : EntryMap String) :
    List Location :=
  (b.tasks p schedule (stepBound p none (b.start p entries).1.pending.length)
    (b.start p entries).1).map fun id => p.locate (id.toPath b.lookup.root)

/-! ## What a build comes to -/

/-- The tasks of a build read each id that it takes up once. -/
theorem tasks_spec (hroot : Path.isAbsolute b.lookup.root = true) (schedule : Schedule)
    (p : Project) (entries : EntryMap String) {reads : List ModuleId}
    (h : b.tasks p schedule (stepBound p none (b.start p entries).1.pending.length)
      (b.start p entries).1 = reads) :
    reads.Nodup ∧
      ∀ id, id ∈ reads ↔ Wanted b p (fun _ => none) (b.start p entries).1.pending id := by
  obtain ⟨named, hstart⟩ := exists_started b p entries
  obtain ⟨done, named', hperm, hlast⟩ :=
    exists_progress_tasks schedule (stepBound p none (b.start p entries).1.pending.length)
      (hstart.progress p _)
  rw [h, List.append_nil] at hperm
  have hend : (b.lastState schedule p entries none []).isDone = true :=
    isDone_run hroot schedule p entries none []
  rw [lastState, reused?_none] at hend
  refine ⟨hperm.nodup_iff.1 hlast.nodup_done, ?_⟩
  intro id
  rw [← hperm.mem_iff, hlast.mem_done_iff hend]

/-- No file is read twice: ids lead back to their files, so different ids lead to different ones. -/
theorem nodup_filesRead (hroot : Path.isAbsolute b.lookup.root = true) (hnamed : b.WellNamed p)
    (entries : EntryMap String) (schedule : Schedule) : (b.filesRead schedule p entries).Nodup := by
  obtain ⟨hnodup, hreads⟩ := tasks_spec hroot schedule p entries rfl
  refine List.Nodup.map_on ?_ hnodup
  intro id hid id' hid' hsame
  have hspec := (found_of_wanted hroot hnamed ((hreads id).1 hid)).spec hroot hnamed
  have hspec' := (found_of_wanted hroot hnamed ((hreads id').1 hid')).spec hroot hnamed
  rw [hsame] at hspec
  exact Option.some.inj (hspec.2.2.symm.trans hspec'.2.2)

/-- The files that are read are those of the ids that can be reached and are there. -/
theorem mem_filesRead_iff (hroot : Path.isAbsolute b.lookup.root = true) (hnamed : b.WellNamed p)
    {loc : Location} : loc ∈ b.filesRead schedule p entries ↔ ∃ id, b.Reachable p entries id ∧
      id.isMissing = false ∧ p.locate (id.toPath b.lookup.root) = loc := by
  obtain ⟨-, hreads⟩ := tasks_spec hroot schedule p entries rfl
  constructor
  · intro hloc
    obtain ⟨id, hid, rfl⟩ := List.mem_map.1 hloc
    obtain ⟨hreachable, hpresent⟩ := (wanted_iff hroot hnamed).1 ((hreads id).1 hid)
    exact ⟨id, hreachable, hpresent, rfl⟩
  · rintro ⟨id, hreachable, hpresent, rfl⟩
    have hwanted := (wanted_iff hroot hnamed).2 ⟨hreachable, hpresent⟩
    exact List.mem_map.2 ⟨id, (hreads id).2 hwanted, rfl⟩

/-- When every id of a list comes to a module, the modules have these ids. -/
theorem map_id_met? {done : List ModuleId}
    (h : ∀ id ∈ done, ∃ m, b.met? p (fun _ => none) id = some m) :
    (done.filterMap (b.met? p fun _ => none)).map (·.id) = done := by
  induction done with
  | nil => rfl
  | cons id r ih =>
    obtain ⟨m, hm⟩ := h id List.mem_cons_self
    have hid : m.id = id := by
      obtain hcarry | ⟨-, errors, hload⟩ := met?_cases hm
      · cases hcarry
      · exact id_of_load hload
    rw [List.filterMap_cons, hm, List.map_cons, hid,
      ih fun x hx => h x (List.mem_cons_of_mem id hx)]

/-- Below an absolute root, and when the names of all files lead back to them, a build from nothing
comes to its end. Its graph holds just what can be reached, each file that can be reached is read
once, and there is one failure for each entry and each import of a file that is read which is not
found, and no other. This holds in whatever order the tasks come to their end. -/
theorem build_reaches (b : GraphBuilder) (hroot : Path.isAbsolute b.lookup.root = true)
    (p : Project) (hnamed : b.WellNamed p) (entries : EntryMap String) (schedule : Schedule)
    {built : GraphBuild} (hbuilt : b.rebuildWith schedule p entries none [] = built) :
    (b.lastState schedule p entries none []).isDone = true ∧
      (∀ id, id ∈ built.graph.ids ↔ b.Reachable p entries id) ∧
      (b.filesRead schedule p entries).Nodup ∧
      (∀ loc, loc ∈ b.filesRead schedule p entries ↔ ∃ id, b.Reachable p entries id ∧
        id.isMissing = false ∧ p.locate (id.toPath b.lookup.root) = loc) ∧
      built.loaded = (b.filesRead schedule p entries).length ∧
      built.errors.Perm (b.lostEntries p entries ++
        (built.graph.ids.filter fun id => !id.isMissing).flatMap (b.lostTargets p)) := by
  have hend : (b.lastState schedule p entries none []).isDone = true :=
    isDone_run hroot schedule p entries none []
  obtain ⟨done, named, h⟩ := exists_outcome_of_isAbsolute hroot schedule p entries none []
  obtain ⟨hnodup, hreads⟩ := tasks_spec hroot schedule p entries rfl
  have hloaded := loaded_build b p entries schedule
  rw [reused?_none, hbuilt] at h
  rw [hbuilt] at hloaded
  have hfound : ∀ id ∈ done, b.Found p id := fun id hid =>
    found_of_wanted hroot hnamed ((h.mem_done id).1 hid)
  have hmet : ∀ id ∈ done, ∃ m, b.met? p (fun _ => none) id = some m := by
    intro id hid
    obtain ⟨source, -, hsource, -⟩ := met?_of_found hroot hnamed (hfound id hid)
    exact ⟨_, hsource⟩
  have hids : built.graph.ids.Perm (named.map (·.1) ++ done) := by
    have hperm := h.modules.map (·.id)
    rwa [List.map_append, map_id_standIns, map_id_met? hmet] at hperm
  have hmem : ∀ id, id ∈ built.graph.ids ↔ b.Reachable p entries id := by
    intro id
    rw [hids.mem_iff, List.mem_append, h.asked, asked_iff hroot hnamed h.mem_done, h.mem_done,
      wanted_iff hroot hnamed]
    cases id.isMissing with
    | true => simp
    | false => simp
  have hdone : done.Perm (built.graph.ids.filter fun id => !id.isMissing) := by
    refine (List.perm_ext_iff_of_nodup h.nodup (built.graph.nodup_ids.filter _)).2 ?_
    intro id
    rw [h.mem_done, wanted_iff hroot hnamed, List.mem_filter, hmem]
    simp
  refine ⟨hend, hmem, nodup_filesRead hroot hnamed entries schedule,
    fun loc => mem_filesRead_iff hroot hnamed, ?_, ?_⟩
  · have hlength : (sources built.graph.modules).length = done.length := by
      rw [h.sources_perm.length_eq]
      simpa using congrArg List.length (map_id_met? hmet)
    have hperm : done.Perm _ := (List.perm_ext_iff_of_nodup h.nodup hnodup).2 fun id => by
      rw [h.mem_done, hreads]
    rw [hloaded, hlength, filesRead, List.length_map]
    exact hperm.length_eq
  · have herrors := h.errors
    rw [errors_start_eq_lostEntries hroot hnamed, flatMap_failures hroot hnamed hfound] at herrors
    exact herrors.trans ((hdone.flatMap_right _).append_left _)

/-! ## Two scripts that import each other -/

/-- Two scripts that import each other, and one that asks for a file which is not there. -/
def eachOther : Project :=
  scripts [("a.js", "import './b';"), ("b.js", "import './a';"), ("c.js", "import './gone';")]

/-- Each of the three is read once; the entry and the import that are not found have stand-ins, and
there are no other failures than theirs. -/
theorem build_reaches_eachOther :
    Path.isAbsolute stubbing.lookup.root = true ∧ stubbing.WellNamed eachOther ∧
      (∀ id, id ∈ (stubbing.build eachOther [("main", ["a", "c", "lost"])]).graph.ids ↔
        stubbing.Reachable eachOther [("main", ["a", "c", "lost"])] id) ∧
      (stubbing.build eachOther [("main", ["a", "c", "lost"])]).graph.ids =
        [⟨"a.js"⟩, ⟨"b.js"⟩, ⟨"c.js"⟩, ⟨"missing:gone"⟩, ⟨"missing:lost"⟩] ∧
      (stubbing.filesRead .inOrder eachOther [("main", ["a", "c", "lost"])]).Nodup ∧
      (stubbing.build eachOther [("main", ["a", "c", "lost"])]).loaded = 3 ∧
      (stubbing.build eachOther [("main", ["a", "c", "lost"])]).errors.Perm
        [.unresolved "lost" none, .unresolved "./gone" (some ⟨"c.js"⟩)] := by
  have hnamed : stubbing.WellNamed eachOther := by decide
  obtain ⟨-, hids, hnodup, -, -, herrors⟩ := build_reaches stubbing (by decide) eachOther hnamed
    [("main", ["a", "c", "lost"])] .inOrder rfl
  have hbuilt : (stubbing.build eachOther [("main", ["a", "c", "lost"])]).graph.ids =
        [⟨"a.js"⟩, ⟨"b.js"⟩, ⟨"c.js"⟩, ⟨"missing:gone"⟩, ⟨"missing:lost"⟩] ∧
      (stubbing.build eachOther [("main", ["a", "c", "lost"])]).loaded = 3 := by decide +kernel
  have hlost : stubbing.lostEntries eachOther [("main", ["a", "c", "lost"])] ++
      [(⟨"a.js"⟩ : ModuleId), ⟨"b.js"⟩, ⟨"c.js"⟩].flatMap (stubbing.lostTargets eachOther) =
      [.unresolved "lost" none, .unresolved "./gone" (some ⟨"c.js"⟩)] := by decide +kernel
  have hpresent : ([⟨"a.js"⟩, ⟨"b.js"⟩, ⟨"c.js"⟩, ⟨"missing:gone"⟩, ⟨"missing:lost"⟩] :
      List ModuleId).filter (fun id => !id.isMissing) = [⟨"a.js"⟩, ⟨"b.js"⟩, ⟨"c.js"⟩] := by
    decide
  refine ⟨by decide, hnamed, hids, hbuilt.1, hnodup, hbuilt.2, ?_⟩
  rw [← hlost, ← hpresent, ← hbuilt.1]
  exact herrors

end GraphBuilder

end Bindery
