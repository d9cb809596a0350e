import Bindery.Proofs.Graph.Outcome

/-!
# When a rebuild agrees with a build from nothing

A rebuild reads again what was touched, the importers of it, and modules with an import that could
not be found. It takes over the rest as it is, without looking at what the imports mean now. So it
agrees with a build from nothing exactly when the modules that it takes over are still up to date:
a new file can take the place of another one, and a package can name another main file, without the
importers being read again.

* `UpToDate` : the imports of a module mean what they meant when it was read.
* `SameSnapshot` : two builds give the same.
* `sameSnapshot_rebuild_iff` : when a rebuild agrees with a build from nothing.
-/

namespace Bindery

namespace GraphBuilder

variable {b : GraphBuilder} {p before after : Project} {entries : EntryMap String}
  {g : ModuleGraph} {touched : List ModuleId} {id : ModuleId} {m : Module}

/-- Every import of a module means what its target says. -/
def UpToDate (b : GraphBuilder) (p : Project) (m : Module) : Prop :=
  ∀ i ∈ m.imports, b.meaning? p m.path i.specifier = i.resolved

instance : Decidable (b.UpToDate p m) :=
  inferInstanceAs (Decidable (∀ i ∈ m.imports, b.meaning? p m.path i.specifier = i.resolved))

/-- The stand-ins that two graphs have for the same id say the same. -/
def SameStandIns (g g' : ModuleGraph) : Prop :=
  ∀ m ∈ g.modules, ∀ m' ∈ g'.modules, m.isStub = true → m'.isStub = true → m.id = m'.id →
    m.source = m'.source

/-- Two builds give the same: the same modules with the same sources and targets, the same entries,
and the same failures, told in the same order. -/
structure SameSnapshot (built built' : GraphBuild) : Prop where
  graph : built.graph = built'.graph
  errors : built.errors.Perm built'.errors
  messages : built.errors.map GraphError.message = built'.errors.map GraphError.message

/-! ## One module -/

/-- A module that was read without a failure, and whose file and imports are as they were, is what
reading it gives now. -/
theorem load_of_upToDate {errors : List GraphError} (hload : b.load before id = .ok (m, errors))
    (hsame : before.read? (id.toPath b.lookup.root) = after.read? (id.toPath b.lookup.root))
    (hresolved : ∀ i ∈ m.imports, i.resolved ≠ none) (hcurrent : b.UpToDate after m) :
    b.load after id = .ok (m, []) := by
  rcases load_spec hload with ⟨source, hsource, rfl, -⟩
  rw [hsame] at hsource
  rw [readFrom_imports] at hresolved
  simp only [UpToDate, readFrom_path, readFrom_imports] at hcurrent
  -- what each import means now is the target that it has
  have hmeaning : ∀ i ∈ b.written id source,
      b.meaning? after (id.toPath b.lookup.root) i.specifier =
        b.target? before id (id.toPath b.lookup.root) i.specifier := by
    intro i hi
    have h := hcurrent _ (List.mem_map_of_mem hi)
    rwa [linked_specifier, linked_resolved] at h
  have hfound : ∀ i ∈ b.written id source,
      (b.meaning? after (id.toPath b.lookup.root) i.specifier).isSome = true := by
    intro i hi
    have h := hresolved _ (List.mem_map_of_mem hi)
    rwa [linked_resolved, ← hmeaning i hi, ← Option.isSome_iff_ne_none] at h
  have hlinked : ∀ i ∈ b.written id source, b.linked after id (id.toPath b.lookup.root) i =
      b.linked before id (id.toPath b.lookup.root) i := by
    intro i hi
    rcases Option.isSome_iff_exists.1 (hfound i hi) with ⟨t, ht⟩
    rcases Option.bind_eq_some_iff.1 ht with ⟨file, hfile, -⟩
    have htarget : b.target? after id (id.toPath b.lookup.root) i.specifier =
        b.target? before id (id.toPath b.lookup.root) i.specifier := by
      rw [← hmeaning i hi, target?, hfile, Option.isSome_some, if_pos rfl]
    rw [linked, linked, htarget]
  rw [load_of_found hsource hfound, readFrom, readFrom, List.map_congr_left hlinked]

/-- A module that was read is up to date if each of its targets was found. -/
theorem upToDate_of_load {errors : List GraphError} (hload : b.load p id = .ok (m, errors))
    (hfound : ∀ i ∈ m.imports, ∃ t, i.resolved = some t ∧ t.isMissing = false) :
    b.UpToDate p m := by
  rcases load_spec hload with ⟨source, -, rfl, -⟩
  intro i hi
  rcases hfound i hi with ⟨t, ht, hpresent⟩
  rw [readFrom_imports] at hi
  rw [readFrom_path]
  rcases List.mem_map.1 hi with ⟨j, -, rfl⟩
  simp only [linked, target?] at ht ⊢
  split at ht
  · next hsome => rw [if_pos hsome]
  · split at ht
    · rw [← Option.some.inj ht] at hpresent
      simp [ModuleId.isMissing_missing] at hpresent
    · simp at ht

/-! ## Two builds -/

theorem stub_eq_of_source_eq {specifier specifier' : String}
    (h : (Module.stub id specifier).source = (Module.stub id specifier').source) :
    Module.stub id specifier = Module.stub id specifier' := by
  simp only [Module.stub] at h ⊢
  rw [h]

/-- Failures in order of their messages print alike when they are the same. -/
theorem messages_eq_of_perm {errors errors' : List GraphError} (h : errors.Perm errors')
    (hsorted : errors.Pairwise fun e e' => e.message ≤ e'.message)
    (hsorted' : errors'.Pairwise fun e e' => e.message ≤ e'.message) :
    errors.map GraphError.message = errors'.map GraphError.message :=
  (h.map _).eq_of_pairwise (fun _ _ _ _ => String.le_antisymm) (List.pairwise_map.2 hsorted)
    (List.pairwise_map.2 hsorted')

namespace Outcome

variable {carry carry' : ModuleId → Option Module} {done done' : List ModuleId}
  {named named' : List (ModuleId × String)} {built built' : GraphBuild}

/-- Builds of the same files take up the same ids when the ids that one of them takes up come to the
same in both. -/
theorem done_perm (h : Outcome b p entries carry done named built)
    (h' : Outcome b p entries carry' done' named' built')
    (hsame : ∀ id ∈ done, b.outcome p carry id = b.outcome p carry' id) : done.Perm done' := by
  have hmet : ∀ id ∈ done, b.met? p carry id = b.met? p carry' id := by
    intro id hid
    rw [met?, met?, hsame id hid]
  refine (List.perm_ext_iff_of_nodup h.nodup h'.nodup).2 ?_
  intro id
  rw [h.mem_done, h'.mem_done]
  -- along the chain of imports that leads to the id, the modules are the same
  constructor
  · intro hid
    induction hid with
    | root hroot hmissing => exact .root hroot hmissing
    | target hid hm ht hmissing ih =>
      exact ih.target ((hmet _ ((h.mem_done _).2 hid)).symm.trans hm) ht hmissing
  · intro hid
    induction hid with
    | root hroot hmissing => exact .root hroot hmissing
    | target _ hm ht hmissing ih =>
      exact ih.target ((hmet _ ((h.mem_done _).2 ih)).trans hm) ht hmissing

/-- The stand-ins are the same when the same are asked for and those for one id say the same. -/
theorem standIns_perm (h : Outcome b p entries carry done named built)
    (h' : Outcome b p entries carry' done' named' built')
    (hids : ∀ t, t ∈ named.map (·.1) ↔ t ∈ named'.map (·.1))
    (hsame : SameStandIns built.graph built'.graph) : (standIns named).Perm (standIns named') := by
  have hstub : ∀ x ∈ named, ∀ y ∈ named', x.1 = y.1 →
      Module.stub x.1 x.2 = Module.stub y.1 y.2 := by
    rintro ⟨t, specifier⟩ hx ⟨_, specifier'⟩ hy rfl
    have hm := h.modules.mem_iff.2 (List.mem_append_left _ (mem_standIns.2 ⟨_, hx, rfl⟩))
    have hm' := h'.modules.mem_iff.2 (List.mem_append_left _ (mem_standIns.2 ⟨_, hy, rfl⟩))
    exact stub_eq_of_source_eq (hsame _ hm _ hm' (by simp) (by simp) (by simp))
  have hnodup : (standIns named).Nodup :=
    List.Nodup.of_map (·.id) (map_id_standIns named ▸ h.nodup_named)
  have hnodup' : (standIns named').Nodup :=
    List.Nodup.of_map (·.id) (map_id_standIns named' ▸ h'.nodup_named)
  refine (List.perm_ext_iff_of_nodup hnodup hnodup').2 ?_
  intro m
  constructor
  · intro hm
    rcases mem_standIns.1 hm with ⟨x, hx, rfl⟩
    rcases List.mem_map.1 ((hids x.1).1 (List.mem_map_of_mem hx)) with ⟨y, hy, hxy⟩
    exact mem_standIns.2 ⟨y, hy, (hstub x hx y hy hxy.symm).symm⟩
  · intro hm
    rcases mem_standIns.1 hm with ⟨y, hy, rfl⟩
    rcases List.mem_map.1 ((hids y.1).2 (List.mem_map_of_mem hy)) with ⟨x, hx, hxy⟩
    exact mem_standIns.2 ⟨x, hx, hstub x hx y hy hxy⟩

/-- Builds of the same files give the same when the ids that one of them takes up come to the same
in both, and the stand-ins do. -/
theorem sameSnapshot (h : Outcome b p entries carry done named built)
    (h' : Outcome b p entries carry' done' named' built')
    (hsame : ∀ id ∈ done, b.outcome p carry id = b.outcome p carry' id)
    (hasks : ∀ id ∈ done, ∀ t, AsksFor b p carry id t ↔ AsksFor b p carry' id t)
    (hstandIns : SameStandIns built.graph built'.graph) : SameSnapshot built built' := by
  have hdone : done.Perm done' := h.done_perm h' hsame
  have hids : ∀ t, t ∈ named.map (·.1) ↔ t ∈ named'.map (·.1) := by
    intro t
    rw [h.asked, h'.asked]
    refine or_congr Iff.rfl ⟨?_, ?_⟩
    · rintro ⟨id, hid, hask⟩
      exact ⟨id, hdone.mem_iff.1 hid, (hasks id hid t).1 hask⟩
    · rintro ⟨id, hid, hask⟩
      have hid := hdone.mem_iff.2 hid
      exact ⟨id, hid, (hasks id hid t).2 hask⟩
  have hmodules : done.filterMap (b.met? p carry) = done.filterMap (b.met? p carry') := by
    refine List.filterMap_congr ?_
    intro id hid
    rw [met?, met?, hsame id hid]
  have hfailures : done.flatMap (b.failures p carry) = done.flatMap (b.failures p carry') := by
    refine List.flatMap_congr ?_
    intro id hid
    rw [failures, failures, hsame id hid]
  have herrors : built.errors.Perm built'.errors := by
    refine h.errors.trans (List.Perm.trans ?_ h'.errors.symm)
    rw [hfailures]
    exact (hdone.flatMap_right _).append_left _
  refine ⟨ModuleGraph.eq_of_perm ?_ (h.roots.trans h'.roots.symm), herrors,
    messages_eq_of_perm herrors h.sorted h'.sorted⟩
  refine h.modules.trans (List.Perm.trans ?_ h'.modules.symm)
  rw [hmodules]
  exact (h.standIns_perm h' hids hstandIns).append (hdone.filterMap _)

end Outcome

/-! ## A rebuild and a build from nothing -/

/-- A module of a graph that was built from nothing was read, or is a stand-in. -/
theorem exists_load_of_mem {done : List ModuleId} {named : List (ModuleId × String)}
    {built : GraphBuild} (h : Outcome b p entries (fun _ => none) done named built)
    (hm : m ∈ built.graph.modules) :
    (m.imports = [] ∧ m.id.isMissing = true) ∨ ∃ errors, b.load p m.id = .ok (m, errors) := by
  rcases List.mem_append.1 (h.modules.mem_iff.1 hm) with hm | hm
  · rcases mem_standIns.1 hm with ⟨x, hx, rfl⟩
    exact .inl ⟨by simp, by simpa using h.missing x hx⟩
  · rcases List.mem_filterMap.1 hm with ⟨id, -, hmet⟩
    rcases met?_cases hmet with hcarry | ⟨-, errors, hload⟩
    · simp at hcarry
    · exact .inr ⟨errors, (id_of_load hload).symm ▸ hload⟩

/-- What a rebuild takes up comes to the same as in a build from nothing, when the modules that it
takes over are up to date. -/
theorem outcome_eq_of_upToDate {done₀ done : List ModuleId}
    {named₀ named : List (ModuleId × String)} {built₀ rebuilt : GraphBuild}
    (h₀ : Outcome b before entries (fun _ => none) done₀ named₀ built₀)
    (h : Outcome b after entries (reused? (some built₀.graph) touched) done named rebuilt)
    (htouched : ∀ m ∈ built₀.graph.modules,
      before.read? (m.id.toPath b.lookup.root) ≠ after.read? (m.id.toPath b.lookup.root) →
        m.id ∈ touched)
    (hcurrent : ∀ m ∈ rebuilt.graph.modules, reused? (some built₀.graph) touched m.id = some m →
      b.UpToDate after m) (hid : id ∈ done) :
    b.outcome after (reused? (some built₀.graph) touched) id =
      b.outcome after (fun _ => none) id := by
  cases hcarry : reused? (some built₀.graph) touched id with
  | none => simp [outcome, hcarry]
  | some m =>
    rcases mem_of_reused? hcarry with ⟨hm, rfl, hreload⟩
    have hpresent := isMissing_of_wanted ((h.mem_done _).1 hid)
    have hrebuilt : m ∈ rebuilt.graph.modules := h.modules.mem_iff.2
      (List.mem_append_right _ (List.mem_filterMap.2 ⟨_, hid, met?_of_carry hcarry⟩))
    rcases exists_load_of_mem h₀ hm with ⟨-, hmissing⟩ | ⟨errors, hload⟩
    · simp [hpresent] at hmissing
    · -- a changed file would have been touched, and its module read again
      have hsame : before.read? (m.id.toPath b.lookup.root) =
          after.read? (m.id.toPath b.lookup.root) := by
        by_contra hchanged
        exact hreload (List.mem_append_left _ (List.mem_append_left _ (htouched m hm hchanged)))
      have hresolved : ∀ i ∈ m.imports, i.resolved ≠ none := by
        intro i hi
        rcases resolved_of_reused? hcarry hi with ⟨t, ht, -⟩
        simp [ht]
      have hnow := load_of_upToDate hload hsame hresolved (hcurrent m hrebuilt hcarry)
      simp [outcome, hcarry, hnow]

/-- A rebuild gives the same as a build from nothing when the modules that it takes over are up to
date and the stand-ins say the same. -/
theorem Outcome.sameSnapshot_of_upToDate {done₀ done done' : List ModuleId}
    {named₀ named named' : List (ModuleId × String)} {built₀ rebuilt fresh : GraphBuild}
    (h₀ : Outcome b before entries (fun _ => none) done₀ named₀ built₀)
    (h : Outcome b after entries (reused? (some built₀.graph) touched) done named rebuilt)
    (h' : Outcome b after entries (fun _ => none) done' named' fresh)
    (htouched : ∀ m ∈ built₀.graph.modules,
      before.read? (m.id.toPath b.lookup.root) ≠ after.read? (m.id.toPath b.lookup.root) →
        m.id ∈ touched)
    (hcurrent : ∀ m ∈ rebuilt.graph.modules, reused? (some built₀.graph) touched m.id = some m →
      b.UpToDate after m)
    (hstandIns : SameStandIns rebuilt.graph fresh.graph) : SameSnapshot rebuilt fresh := by
  refine h.sameSnapshot h' ?_ ?_ hstandIns
  · exact fun id hid => outcome_eq_of_upToDate h₀ h htouched hcurrent hid
  · intro id hid t
    have hsame := outcome_eq_of_upToDate h₀ h htouched hcurrent hid
    constructor
    · rintro ⟨hcarry, m, hm, ht⟩
      rw [met?, hsame] at hm
      exact ⟨rfl, m, hm, ht⟩
    · rintro ⟨-, m, hm, ht, hmissing⟩
      rw [met?, ← hsame] at hm
      exact ⟨reused?_eq_none_of_missing hm ht hmissing, m, hm, ht, hmissing⟩

/-- When no file has changed, a rebuild gives the same as the build before unless stand-ins come to
say something else. -/
theorem sameSnapshot_of_unchanged (hroot : Path.isAbsolute b.lookup.root = true)
    (schedule₀ schedule : Schedule)
    (hstandIns : SameStandIns
      (b.rebuildWith schedule p entries (some (b.rebuildWith schedule₀ p entries none []).graph)
        []).graph
      (b.rebuildWith schedule₀ p entries none []).graph) :
    SameSnapshot
      (b.rebuildWith schedule p entries (some (b.rebuildWith schedule₀ p entries none []).graph) [])
      (b.rebuildWith schedule₀ p entries none []) := by
  rcases exists_outcome_of_isAbsolute hroot schedule₀ p entries none [] with ⟨done₀, named₀, h₀⟩
  rw [reused?_none] at h₀
  generalize b.rebuildWith schedule₀ p entries none [] = built₀ at *
  rcases exists_outcome_of_isAbsolute hroot schedule p entries (some built₀.graph) [] with
    ⟨done, named, h⟩
  refine h₀.sameSnapshot_of_upToDate h h₀ (fun m _ hchanged => absurd rfl hchanged) ?_ hstandIns
  -- what is taken over was found among the same files
  intro m _ hcarry
  obtain ⟨hm, -, -⟩ := mem_of_reused? hcarry
  rcases exists_load_of_mem h₀ hm with ⟨hnil, -⟩ | ⟨errors, hload⟩
  · simp [UpToDate, hnil]
  · exact upToDate_of_load hload fun i hi => resolved_of_reused? hcarry hi

/-- A rebuild agrees with a build from nothing exactly when the modules that it takes over are up to
date and the stand-ins that both have say the same. This holds below every absolute root, for all
files before and after, when the modules of the earlier graph whose files have changed were touched,
and in whatever order tasks finish. -/
theorem sameSnapshot_rebuild_iff (b : GraphBuilder) (hroot : Path.isAbsolute b.lookup.root = true)
    (before after : Project) (entries : EntryMap String) (touched : List ModuleId)
    (schedule₀ schedule schedule' : Schedule) {g : ModuleGraph}
    (hg : (b.rebuildWith schedule₀ before entries none []).graph = g)
    (htouched : ∀ m ∈ g.modules,
      before.read? (m.id.toPath b.lookup.root) ≠ after.read? (m.id.toPath b.lookup.root) →
        m.id ∈ touched) :
    SameSnapshot (b.rebuildWith schedule after entries (some g) touched)
        (b.rebuildWith schedule' after entries none []) ↔
      (∀ m ∈ (b.rebuildWith schedule after entries (some g) touched).graph.modules,
        reused? (some g) touched m.id = some m → b.UpToDate after m) ∧
      SameStandIns (b.rebuildWith schedule after entries (some g) touched).graph
        (b.rebuildWith schedule' after entries none []).graph := by
  subst hg
  rcases exists_outcome_of_isAbsolute hroot schedule₀ before entries
    none [] with ⟨done₀, named₀, h₀⟩
  rcases exists_outcome_of_isAbsolute hroot schedule' after entries
    none [] with ⟨done', named', h'⟩
  rw [reused?_none] at h₀ h'
  generalize b.rebuildWith schedule₀ before entries none [] = built₀ at *
  rcases exists_outcome_of_isAbsolute hroot schedule after entries
    (some built₀.graph) touched with ⟨done, named, h⟩
  generalize b.rebuildWith schedule after entries (some built₀.graph) touched = rebuilt at *
  generalize b.rebuildWith schedule' after entries none [] = fresh at *
  constructor
  · rintro ⟨hgraph, -, -⟩
    constructor
    · intro m hm hcarry
      -- the build from nothing has the module as well, and it has read it
      rcases exists_load_of_mem h' (hgraph ▸ hm) with ⟨hnil, -⟩ | ⟨errors, hload⟩
      · simp [UpToDate, hnil]
      · exact upToDate_of_load hload fun i hi => resolved_of_reused? hcarry hi
    · intro m hm m' hm' _ _ hid
      rw [ModuleGraph.eq_of_id_eq (hgraph ▸ hm) hm' hid]
  · rintro ⟨hcurrent, hstandIns⟩
    exact h₀.sameSnapshot_of_upToDate h h' htouched hcurrent hstandIns

/-! ## Projects where it does and where it does not -/

/-- Scripts directly below `/app`. -/
def scripts (files : List (String × String)) : Project :=
  { files := ⟨files.map fun f => (["app", f.1], .file f.2.toUTF8)⟩, base := "/app" }

/-- Builds below `/app` in which `.ts` is tried before `.js`. -/
def typedFirst : GraphBuilder :=
  { lookup := { root := "/app", extensions := [".ts", ".js"] }, stubUnresolved := false }

/-- Three scripts that import one another in turn. -/
def chain (last : String) : Project :=
  scripts [("a.js", "import './b';\n"), ("b.js", "import './c';\n"), ("c.js", last)]

/-- After an edit at the end of a chain its beginning is taken over, and that is right. -/
theorem sameSnapshot_rebuild_chain :
    (typedFirst.rebuild (chain "2") [("main", ["a"])]
        (some (typedFirst.build (chain "1") [("main", ["a"])]).graph) [⟨"c.js"⟩]).reused = 1 ∧
      SameSnapshot
        (typedFirst.rebuild (chain "2") [("main", ["a"])]
          (some (typedFirst.build (chain "1") [("main", ["a"])]).graph) [⟨"c.js"⟩])
        (typedFirst.build (chain "2") [("main", ["a"])]) := by
  have hids : (typedFirst.build (chain "1") [("main", ["a"])]).graph.ids =
      [⟨"a.js"⟩, ⟨"b.js"⟩, ⟨"c.js"⟩] := by decide +kernel
  have hrebuilt : (typedFirst.rebuild (chain "2") [("main", ["a"])]
        (some (typedFirst.build (chain "1") [("main", ["a"])]).graph) [⟨"c.js"⟩]).reused = 1 ∧
      ∀ m ∈ (typedFirst.rebuild (chain "2") [("main", ["a"])]
        (some (typedFirst.build (chain "1") [("main", ["a"])]).graph) [⟨"c.js"⟩]).graph.modules,
        typedFirst.UpToDate (chain "2") m ∧ m.isStub = false := by decide +kernel
  refine ⟨hrebuilt.1, ?_⟩
  refine (sameSnapshot_rebuild_iff typedFirst (by decide) (chain "1") (chain "2")
    [("main", ["a"])] [⟨"c.js"⟩] .inOrder .inOrder .inOrder rfl ?_).2 ⟨?_, ?_⟩
  · intro m hm hchanged
    have hid : m.id ∈ [(⟨"a.js"⟩ : ModuleId), ⟨"b.js"⟩, ⟨"c.js"⟩] :=
      hids ▸ List.mem_map_of_mem hm
    simp only [List.mem_cons, List.not_mem_nil, or_false] at hid
    rcases hid with hid | hid | hid
    · rw [hid] at hchanged
      exact absurd (by decide) hchanged
    · rw [hid] at hchanged
      exact absurd (by decide) hchanged
    · exact hid ▸ List.mem_cons_self
  · exact fun m hm _ => (hrebuilt.2 m hm).1
  · intro m hm m' _ hstub
    exact absurd hstub (by simp [(hrebuilt.2 m hm).2])

/-- A file that takes the place of another one. -/
def unshadowed : Project := scripts [("a.js", "import './b';\n"), ("b.js", "")]
def shadowed : Project := scripts [("a.js", "import './b';\n"), ("b.js", ""), ("b.ts", "")]

/-- A new file can take the place of an import's target. It is touched, and it is the only file that
has changed, but the importer is taken over with its old target. -/
theorem not_sameSnapshot_rebuild_shadowed :
    (∀ path, unshadowed.read? path ≠ shadowed.read? path →
      ModuleId.ofPath? "/app" path = some ⟨"b.ts"⟩) ∧
    ¬SameSnapshot
      (typedFirst.rebuild shadowed [("main", ["a"])]
        (some (typedFirst.build unshadowed [("main", ["a"])]).graph) [⟨"b.ts"⟩])
      (typedFirst.build shadowed [("main", ["a"])]) := by
  constructor
  · intro path hchanged
    have habsolute : Path.isAbsolute (Path.join "/app" path) = true :=
      Path.isAbsolute_join (by decide) path
    -- at any other location both projects have the same
    have hlocation : Location.ofPath "/app" path = ["app", "b.ts"] := by
      by_contra hother
      have hnodes : shadowed.files.nodes =
          unshadowed.files.nodes ++ [(["app", "b.ts"], .file "".toUTF8)] := rfl
      have hother : (Location.ofPath "/app" path == ["app", "b.ts"]) = false := by
        simpa using hother
      have hfind : shadowed.files.find? (Location.ofPath "/app" path) =
          unshadowed.files.find? (Location.ofPath "/app" path) := by
        simp [FileTree.find?, hnodes, List.lookup_append, List.lookup_cons, hother]
      refine hchanged ?_
      show unshadowed.files.read? (Location.ofPath "/app" path) =
        shadowed.files.read? (Location.ofPath "/app" path)
      rw [FileTree.read?, FileTree.read?, hfind]
    rw [ModuleId.ofPath?, Path.clean_of_isAbsolute habsolute "/app", Path.ofPath_join (by decide),
      hlocation]
    decide
  · intro hsame
    -- the rebuild still has the old target, the build from nothing has the new one
    have hrebuilt : (typedFirst.rebuild shadowed [("main", ["a"])]
        (some (typedFirst.build unshadowed [("main", ["a"])]).graph) [⟨"b.ts"⟩]).graph.ids =
          [⟨"a.js"⟩, ⟨"b.js"⟩] := by decide +kernel
    have hfresh : (typedFirst.build shadowed [("main", ["a"])]).graph.ids =
        [⟨"a.js"⟩, ⟨"b.ts"⟩] := by decide +kernel
    rw [hsame.graph, hfresh] at hrebuilt
    exact absurd hrebuilt (by decide)

end GraphBuilder

end Bindery
