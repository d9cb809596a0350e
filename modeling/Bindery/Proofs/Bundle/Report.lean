import Bindery.Proofs.Bundle.Failure
import Bindery.Proofs.Graph.Reachable

/-!
# A failed build tells of everything

Failures are gathered wherever they come up: while the graph is built, while modules are transformed
and while scripts are made smaller. A build that fails tells of all failures of the stages up to the
first one with any, and in an order of its own: those of the graph by their messages, those of modules
and scripts by their ids. This is so in whatever order tasks and modules come to their end.

* `GraphBuilder.Outcome.errors_of_unresolved` : a graph whose failures are all specifiers that are not
  found has one for each of them.
* `Bundler.buildWith` : a build from nothing whose tasks and modules end in any order.
* `Bundler.Reports`, `Bundler.reports_buildWith` : what such a build tells.
-/

namespace Bindery

namespace GraphBuilder

variable {b : GraphBuilder} {p : Project} {entries : EntryMap String} {id : ModuleId}
  {specifier : String}

/-! ## Specifiers that are not found -/

/-- An entry that fails only for not being found fails exactly when it is not found. -/
theorem entryFailure?_of_unresolved
    (h : ∀ e, b.entryFailure? p specifier = some e → e.isResolution = true) :
    b.entryFailure? p specifier =
      if (b.lookup.resolve? p specifier none).isNone then some (.unresolved specifier none)
      else none := by
  unfold entryFailure? resolveEntry at h ⊢
  cases hfile : b.lookup.resolve? p specifier none with
  | none => rfl
  | some file =>
    cases hid : ModuleId.ofPath? b.lookup.root file with
    | some id => simp [hid]
    | none =>
      have hempty := h .emptyModuleId (by simp [hfile, hid])
      cases hempty

/-- A module that fails only for imports that are not found has been read, and fails for each of
them. -/
theorem failures_of_unresolved (h : ∀ e ∈ b.failures p (fun _ => none) id, e.isResolution = true) :
    (∃ m, b.met? p (fun _ => none) id = some m) ∧
      b.failures p (fun _ => none) id = b.lostTargets p id := by
  cases hload : b.load p id with
  | ok found =>
    rcases found with ⟨m, errors⟩
    obtain ⟨source, hsource, rfl, rfl⟩ := load_spec hload
    refine ⟨⟨b.readFrom p id source, by simp [met?, outcome, hload]⟩, ?_⟩
    simp [failures, outcome, hload, lostTargets, importsOf, hsource]
  | error e =>
    have hmem : e ∈ b.failures p (fun _ => none) id := by simp [failures, outcome, hload]
    have hresolution := h e hmem
    -- reading a file fails for other reasons than that something is not found
    unfold load at hload
    dsimp only at hload
    split at hload
    · obtain rfl := Except.error.inj hload
      cases hresolution
    · split at hload
      · cases hload
      · obtain rfl := Except.error.inj hload
        cases hresolution

/-- When nothing else fails, there is one failure for each entry that is not found and for each import
of a module that is not found. -/
theorem Outcome.errors_of_unresolved {done : List ModuleId} {named : List (ModuleId × String)}
    {built : GraphBuild} (h : Outcome b p entries (fun _ => none) done named built)
    (hresolution : ∀ e ∈ built.errors, e.isResolution = true) :
    built.errors.Perm (b.lostEntries p entries ++
      ((sources built.graph.modules).map (·.id)).flatMap (b.lostTargets p)) := by
  have hall : ∀ e ∈ (b.start p entries).1.errors ++ done.flatMap (b.failures p fun _ => none),
      e.isResolution = true :=
    fun e he => hresolution e (h.errors.mem_iff.2 he)
  have hread : ∀ id ∈ done, (∃ m, b.met? p (fun _ => none) id = some m) ∧
      b.failures p (fun _ => none) id = b.lostTargets p id := by
    intro id hid
    refine failures_of_unresolved ?_
    intro e he
    exact hall e (List.mem_append_right _ (List.mem_flatMap.2 ⟨id, hid, he⟩))
  have hstart : (b.start p entries).1.errors = b.lostEntries p entries := by
    rw [errors_start, lostEntries, ← List.filterMap_eq_map, List.filterMap_filter]
    refine List.filterMap_congr ?_
    intro specifier hspecifier
    refine entryFailure?_of_unresolved ?_
    intro e he
    refine hall e (List.mem_append_left _ ?_)
    rw [errors_start]
    exact List.mem_filterMap.2 ⟨specifier, hspecifier, he⟩
  have hfailures : done.flatMap (b.failures p fun _ => none) = done.flatMap (b.lostTargets p) :=
    List.flatMap_congr fun id hid => (hread id hid).2
  have hids : ((sources built.graph.modules).map (·.id)).Perm done := by
    have hperm := h.sources_perm.map (·.id)
    rwa [map_id_met? fun id hid => (hread id hid).1] at hperm
  have herrors := h.errors
  rw [hstart, hfailures] at herrors
  exact herrors.trans ((hids.symm.flatMap_right _).append_left _)

end GraphBuilder

namespace Bundler

variable {b : Bundler} {p : Project} {schedule : Schedule} {finish : List Module → List Module}
  {built : GraphBuild} {outputs : ModuleOutputs} {name : String} {engine : Engine} {d d' : Disk}
  {e : BuildError}

/-! ## Failures of a graph -/

theorem fatal_of_isProduction (h : b.profile.isProduction = true) (built : GraphBuild) :
    b.fatal built = built.errors.map .resolution := by
  have hdev : b.profile.isDevelopment = false := by
    unfold Profile.isProduction Profile.isDevelopment at *
    rw [eq_of_beq h]
    rfl
  have hall : built.errors.filter (fun e => !b.isRecoverable e) = built.errors :=
    List.filter_eq_self.2 fun e _ => by simp [isRecoverable, hdev]
  rw [fatal, hall]

theorem fatal_of_isDevelopment (h : b.profile.isDevelopment = true) (built : GraphBuild) :
    b.fatal built = (built.errors.filter fun e => !e.isResolution).map .resolution := by
  simp [fatal, isRecoverable, h]

/-- The failures of scripts name those that fail, each once and in order. -/
theorem map_module?_minifyFailures (b : Bundler) (name : String) (engine : Engine)
    (outputs : ModuleOutputs) :
    (b.minifyFailures name engine outputs).map BuildError.module? =
      ((scripts outputs).filter fun s => !(b.minifyScript name engine s.1 s.2).isOk).map
        fun s => some s.1 := by
  unfold minifyFailures
  induction scripts outputs with
  | nil => rfl
  | cons s r ih =>
    cases hscript : b.minifyScript name engine s.1 s.2 with
    | ok o => simp [hscript, ih, Except.isOk, Except.toBool]
    | error e =>
      obtain ⟨detail, rfl⟩ := exists_of_minifyScript_error hscript
      simp [hscript, ih, Except.isOk, Except.toBool, BuildError.module?]

theorem ids_scripts_sublist (outputs : ModuleOutputs) :
    ((scripts outputs).map (·.1)).Sublist outputs.ids := by
  induction outputs with
  | nil => exact List.Sublist.refl _
  | cons x r ih =>
    obtain ⟨id, o⟩ := x
    cases o with
    | code kind code =>
      cases kind with
      | script => exact ih.cons_cons id
      | style => exact ih.cons id
    | asset file bytes => exact ih.cons id

/-- Scripts are in the order of their ids. -/
theorem pairwise_scripts (h : outputs.InOrder) :
    (scripts outputs).Pairwise fun s s' => s.1 < s'.1 :=
  List.pairwise_map.1 (List.Pairwise.sublist (ids_scripts_sublist outputs) h)

/-! ## Builds in any order -/

/-- Everything up to the files, when tasks and modules come to their end in some order. -/
def compileWith (b : Bundler) (schedule : Schedule) (finish : List Module → List Module)
    (p : Project) : Except BuildError Bundle :=
  let built := b.graphBuilder.rebuildWith schedule p b.profile.entries none []
  b.assemble built
    ((Transformer.ofProfile b.profile b.registry).runWith finish built.graph none)
    (.between .empty built.graph)

/-- A build from nothing whose tasks and modules come to their end in some order. -/
def buildWith (b : Bundler) (schedule : Schedule) (finish : List Module → List Module)
    (p : Project) : OutputM Snapshot := do
  b.prepare
  match b.compileWith schedule finish p with
  | .error e => throw e
  | .ok made => b.write made false

theorem buildWith_inOrder (b : Bundler) (p : Project) : b.buildWith .inOrder id p = b.build p := rfl

/-- The graph that such a build is made from. -/
def graphWith (b : Bundler) (schedule : Schedule) (p : Project) : GraphBuild :=
  b.graphBuilder.rebuildWith schedule p b.profile.entries none []

theorem exists_outcome_graphWith (hroot : Path.isAbsolute b.profile.root = true)
    (schedule : Schedule) (p : Project) :
    ∃ done named, GraphBuilder.Outcome b.graphBuilder p b.profile.entries (fun _ => none) done named
      (b.graphWith schedule p) := by
  have hclean : Path.isAbsolute b.graphBuilder.lookup.root = true := Path.isAbsolute_clean hroot
  have h := GraphBuilder.exists_outcome_of_isAbsolute hclean schedule p b.profile.entries none []
  rwa [GraphBuilder.reused?_none] at h

/-- How modules are transformed. -/
def transformer (b : Bundler) : Transformer := .ofProfile b.profile b.registry

/-- What keeps modules from becoming chunks: failures of the graph that a build cannot go on with,
and after them the failures of transforming modules. -/
def moduleErrors (b : Bundler) (schedule : Schedule) (p : Project) : List BuildError :=
  b.fatal (b.graphWith schedule p) ++ b.transformer.failuresOf (b.graphWith schedule p).graph

/-- What keeps scripts from being made smaller. -/
def scriptErrors (b : Bundler) (schedule : Schedule) (p : Project) (name : String)
    (engine : Engine) : List BuildError :=
  b.minifyFailures name engine (b.transformer.outputsOf (b.graphWith schedule p).graph)

theorem compileWith_eq (hfinish : ∀ work, (finish work).Perm work) (b : Bundler)
    (schedule : Schedule) (p : Project) : ∃ batch : TransformBatch,
      b.compileWith schedule finish p = b.assemble (b.graphWith schedule p) batch
        (.between .empty (b.graphWith schedule p).graph) ∧
      batch.outputs = b.transformer.outputsOf (b.graphWith schedule p).graph ∧
      batch.errors = b.transformer.failuresOf (b.graphWith schedule p).graph := by
  have hspec := Transformer.runWith_spec (t := b.transformer)
    (g := (b.graphWith schedule p).graph) hfinish (Transformer.valid_none _ _)
  exact ⟨_, rfl, hspec.1, hspec.2⟩

theorem buildWith_of_error {d₁ : Disk} (hprepare : b.prepare d = (.ok (), d₁))
    (hcompile : b.compileWith schedule finish p = .error e) :
    b.buildWith schedule finish p d = (.error e, d₁) := by
  unfold buildWith
  refine Work.bind_eq_error.2 (.inr ⟨(), d₁, hprepare, ?_⟩)
  rw [hcompile]
  rfl

/-- A build in any order fails before anything is written, or in removing or in writing. -/
theorem buildWith_error (h : b.buildWith schedule finish p d = (.error e, d')) :
    b.compileWith schedule finish p = .error e ∨ e.IsLate := by
  unfold buildWith at h
  rcases Work.bind_eq_error.1 h with hprepare | ⟨u, t, -, hrest⟩
  · exact .inr (failsLate_prepare b d e d' hprepare)
  · cases hcompile : b.compileWith schedule finish p with
    | error first =>
      rw [hcompile] at hrest
      cases hrest
      exact .inl rfl
    | ok made =>
      rw [hcompile] at hrest
      exact .inr (failsLate_write b made false t e d' hrest)

theorem buildWith_ok {snapshot : Snapshot}
    (h : b.buildWith schedule finish p d = (.ok snapshot, d')) :
    b.compileWith schedule finish p = .ok snapshot.toBundle := by
  unfold buildWith at h
  obtain ⟨u, t, -, hrest⟩ := Work.bind_eq_ok.1 h
  cases hcompile : b.compileWith schedule finish p with
  | error first =>
    rw [hcompile] at hrest
    cases hrest
  | ok made =>
    rw [hcompile] at hrest
    rw [(write_ok hrest).1]

/-! ## What is told -/

/-- What a build from nothing tells of its failures. -/
structure Reports (b : Bundler) (p : Project) (schedule : Schedule)
    (finish : List Module → List Module) (d : Disk) : Prop where
  /-- The failures of the graph are those of the entries and of the modules that are taken up. -/
  graph : Path.isAbsolute b.profile.root = true → ∃ done : List ModuleId, done.Nodup ∧
    (∀ id, id ∈ done ↔ GraphBuilder.Wanted b.graphBuilder p (fun _ => none)
      (b.graphBuilder.start p b.profile.entries).1.pending id) ∧
    (b.graphWith schedule p).errors.Perm ((b.graphBuilder.start p b.profile.entries).1.errors ++
      done.flatMap (b.graphBuilder.failures p fun _ => none))
  sorted : (b.graphWith schedule p).errors.Pairwise fun e e' => e.message ≤ e'.message
  /-- In production all of them count, in development those that are not about something that is not
  found. -/
  fatal : b.fatal (b.graphWith schedule p) =
    ((b.graphWith schedule p).errors.filter fun e =>
      b.profile.isProduction || !e.isResolution).map .resolution
  /-- There is one failure of each module that cannot be transformed, in the order of modules. -/
  broken : (b.transformer.failuresOf (b.graphWith schedule p).graph).map BuildError.module? =
    ((b.graphWith schedule p).graph.modules.filter fun m => (b.transformer.failure? m).isSome).map
      fun m => some m.id
  /-- Failures of the graph and of transforming modules are told of together. -/
  modules : ∀ d₁, b.prepare d = (.ok (), d₁) → b.moduleErrors schedule p ≠ [] →
    ∃ e, b.buildWith schedule finish p d = (.error e, d₁) ∧ e.leaves = b.moduleErrors schedule p
  /-- There is one failure of each script that cannot be made smaller, in the order of modules. -/
  unshrunk : ∀ name engine, ∃ work : List (ModuleId × String),
    scripts (b.transformer.outputsOf (b.graphWith schedule p).graph) = work ∧
    work.Pairwise (fun x y => x.1 < y.1) ∧
    (b.scriptErrors schedule p name engine).map BuildError.module? =
      (work.filter fun x => !(b.minifyScript name engine x.1 x.2).isOk).map (fun x => some x.1) ∧
    ∀ e ∈ b.scriptErrors schedule p name engine, ∃ id detail, e = .minify id name detail
  /-- Where all modules are transformed, failures of scripts are told of together. -/
  scripts : ∀ d₁ s engine, b.prepare d = (.ok (), d₁) → b.moduleErrors schedule p = [] →
    b.profile.settings = .production s → b.has .minify = true →
    b.registry.get? s.minimizer = some engine →
    b.scriptErrors schedule p s.minimizer engine ≠ [] →
    ∃ e, b.buildWith schedule finish p d = (.error e, d₁) ∧
      e.leaves = b.scriptErrors schedule p s.minimizer engine
  /-- The class of an error is told by its leaves. -/
  kind : ∀ e d', b.buildWith schedule finish p d = (.error e, d') → e.ToldByLeaves
  /-- In development the warnings are about all specifiers that are not found. -/
  warnings : b.profile.isDevelopment = true → ∀ snapshot d',
    b.buildWith schedule finish p d = (.ok snapshot, d') →
    snapshot.warnings = (b.graphWith schedule p).errors.map .resolution ∧
    (∀ e ∈ (b.graphWith schedule p).errors, e.isResolution = true) ∧
    (Path.isAbsolute b.profile.root = true →
      (b.graphWith schedule p).errors.Perm
        (b.graphBuilder.lostEntries p b.profile.entries ++
          ((GraphBuilder.sources snapshot.graph.modules).map (·.id)).flatMap
            (b.graphBuilder.lostTargets p)))

/-- Without failures that count, a development build warns of all that was not found. -/
theorem warnings_buildWith (hdev : b.profile.isDevelopment = true) {snapshot : Snapshot}
    (h : b.buildWith schedule finish p d = (.ok snapshot, d')) :
    snapshot.warnings = (b.graphWith schedule p).errors.map .resolution ∧
      (∀ e ∈ (b.graphWith schedule p).errors, e.isResolution = true) ∧
      (Path.isAbsolute b.profile.root = true →
        (b.graphWith schedule p).errors.Perm
          (b.graphBuilder.lostEntries p b.profile.entries ++
            ((GraphBuilder.sources snapshot.graph.modules).map (·.id)).flatMap
              (b.graphBuilder.lostTargets p))) := by
  obtain ⟨hfatal, hwarnings, hgraph⟩ := warnings_of_assemble (buildWith_ok h)
  have hresolution : ∀ e ∈ (b.graphWith schedule p).errors, e.isResolution = true := by
    rw [← graphWith, fatal_of_isDevelopment hdev] at hfatal
    simpa [List.filter_eq_nil_iff] using hfatal
  have hall : (b.graphWith schedule p).errors.filter b.isRecoverable =
      (b.graphWith schedule p).errors :=
    List.filter_eq_self.2 fun e he => by simp [isRecoverable, hdev, hresolution e he]
  refine ⟨?_, hresolution, ?_⟩
  · rw [hwarnings, ← graphWith, hall]
  · intro hroot
    obtain ⟨done, named, houtcome⟩ := exists_outcome_graphWith hroot schedule p
    rw [hgraph]
    exact houtcome.errors_of_unresolved hresolution

/-- A build from nothing tells of everything that went wrong, in whatever order tasks and modules come
to their end. -/
theorem reports_buildWith (b : Bundler) (p : Project) (schedule : Schedule)
    (hfinish : ∀ work, (finish work).Perm work) (d : Disk) : b.Reports p schedule finish d := by
  obtain ⟨batch, hcompile, houtputs, herrors⟩ := compileWith_eq hfinish b schedule p
  constructor
  · intro hroot
    obtain ⟨done, named, h⟩ := exists_outcome_graphWith hroot schedule p
    exact ⟨done, h.nodup, h.mem_done, h.errors⟩
  · exact GraphBuilder.pairwise_sortByMessage _
  · rw [fatal]
    congr 2
    funext e
    unfold isRecoverable Profile.isProduction Profile.isDevelopment
    cases b.profile.mode with
    | development => rfl
    | production => rfl
  · exact Transformer.map_module?_failuresOf _ _
  · intro d₁ hprepare hne
    obtain ⟨e, he⟩ := BuildError.exists_ofList hne
    have hsingle : ∀ e ∈ b.moduleErrors schedule p, e.IsSingle := by
      intro e he
      rcases List.mem_append.1 he with he | he
      · exact (isEarly_of_mem_fatal he).single
      · obtain ⟨m, -, hm⟩ := List.mem_filterMap.1 he
        exact (Transformer.isEarly_of_transformModule
          (Transformer.failure?_eq_some_iff.1 hm)).single
    refine ⟨e, buildWith_of_error hprepare ?_, BuildError.leaves_of_ofList he hsingle⟩
    rw [hcompile, assemble_eq_error, herrors]
    exact .inl he
  · intro name engine
    refine ⟨_, rfl, pairwise_scripts (Transformer.inOrder_outputsOf _ _),
      map_module?_minifyFailures b name engine _, ?_⟩
    intro e he
    obtain ⟨id, code, -, hfailed⟩ := mem_minifyFailures.1 he
    exact ⟨id, exists_of_minifyScript_error hfailed⟩
  · intro d₁ s engine hprepare hnone hsettings hhas hengine hne
    obtain ⟨e, he⟩ := BuildError.exists_ofList hne
    have hleaves := BuildError.leaves_of_ofList he fun e he =>
      (isEarly_of_mem_minifyFailures he).single
    refine ⟨e, buildWith_of_error hprepare ?_, hleaves⟩
    rw [hcompile, assemble_eq_error, herrors]
    refine .inr ⟨hnone, ?_⟩
    rw [minifyStage, hsettings]
    dsimp only
    rw [if_pos hhas, minify_eq_error hengine, houtputs]
    exact he
  · intro e d' h
    rcases buildWith_error h with hearly | hlate
    · rw [hcompile] at hearly
      refine (toldByLeaves_of_assemble ?_ hearly).1
      intro e he
      rw [herrors] at he
      obtain ⟨m, -, hm⟩ := List.mem_filterMap.1 he
      exact Transformer.isEarly_of_transformModule (Transformer.failure?_eq_some_iff.1 hm)
    · exact hlate.single.toldByLeaves
  · exact fun hdev snapshot d' h => warnings_buildWith hdev h

/-! ## A page where much goes wrong -/

/-- Scripts for production, read strictly and made smaller: one that says "boom" is refused, and none
can be made smaller. -/
def strained (roots : List String) : Bundler :=
  { profile :=
      .ofLayer
        { root := some "/app", entries := some [("main", roots)], extensions := some [".js"]
          outputPath := some "out", minimize := some true, minimizer := some "small"
          rules := some [{ test := .ofLiteral "js$", chain := [{ engine := "strict" }] }] }
        .production {}
    registry :=
      [{ name := "strict"
         apply := fun i =>
           if i.code = "boom" then .failed (.failed "unexpected token 'boom'")
           else .done { code := i.code, kind := .script } },
       { name := "small"
         apply := fun i => if i.code = "1" then .hangs else .failed (.failed "no") }] }

/-- Two scripts that are refused, and one that asks for something that is not there. -/
def troubled : Project :=
  ⟨⟨[(["app", "a.js"], .file "import './lost';".toUTF8), (["app", "b.js"], .file "boom".toUTF8),
    (["app", "c.js"], .file "boom".toUTF8)]⟩, "/app"⟩

/-- Two scripts without imports. -/
def plain : Project :=
  ⟨⟨[(["app", "a.js"], .file "1".toUTF8), (["app", "b.js"], .file "2".toUTF8)]⟩, "/app"⟩

/-- A disk with nothing on it. -/
def bare : Disk := { tree := .empty, base := "/app" }

/-- All that is wrong with the first page is told at once, and so is all that is wrong with the scripts
of the second one. -/
theorem reports_buildWith_strained :
    (∀ work : List Module, work.reverse.Perm work) ∧
    (∃ e, (strained ["c", "a", "b"]).buildWith (fun _ => 1) List.reverse troubled bare =
          (.error e, bare) ∧ e.ToldByLeaves ∧
        e.leaves.map BuildError.message =
          ["cannot resolve './lost' from 'a.js'",
            "Transform 'strict' failed for 'b.js': unexpected token 'boom'",
            "Transform 'strict' failed for 'c.js': unexpected token 'boom'"]) ∧
    ∃ e, (strained ["b", "a"]).buildWith (fun _ => 1) List.reverse plain bare = (.error e, bare) ∧
      e.ToldByLeaves ∧
      e.leaves.map BuildError.message =
        ["Minifier 'small' failed for 'a.js': timed out after 30000ms",
          "Minifier 'small' failed for 'b.js': no"] := by
  have hreports := reports_buildWith (strained ["c", "a", "b"]) troubled (fun _ => 1)
    List.reverse_perm bare
  have hreports' := reports_buildWith (strained ["b", "a"]) plain (fun _ => 1) List.reverse_perm bare
  have hmodules : ((strained ["c", "a", "b"]).moduleErrors (fun _ => 1) troubled).map
      BuildError.message =
        ["cannot resolve './lost' from 'a.js'",
          "Transform 'strict' failed for 'b.js': unexpected token 'boom'",
          "Transform 'strict' failed for 'c.js': unexpected token 'boom'"] := by
    decide +kernel
  have hscripts : ((strained ["b", "a"]).moduleErrors (fun _ => 1) plain).isEmpty = true ∧
      (((strained ["b", "a"]).registry.get? "small").map fun engine =>
        ((strained ["b", "a"]).scriptErrors (fun _ => 1) plain "small" engine).map
          BuildError.message) =
        some ["Minifier 'small' failed for 'a.js': timed out after 30000ms",
          "Minifier 'small' failed for 'b.js': no"] := by
    decide +kernel
  refine ⟨List.reverse_perm, ?_, ?_⟩
  · obtain ⟨e, hbuild, hleaves⟩ := hreports.modules bare rfl (by
      intro hnil
      rw [hnil] at hmodules
      cases hmodules)
    exact ⟨e, hbuild, hreports.kind e bare hbuild, by rw [hleaves, hmodules]⟩
  · obtain ⟨hnone, hfailed⟩ := hscripts
    obtain ⟨engine, hengine, hmessages⟩ := Option.map_eq_some_iff.1 hfailed
    have hne : (strained ["b", "a"]).scriptErrors (fun _ => 1) plain "small" engine ≠ [] := by
      intro hnil
      rw [hnil] at hmessages
      cases hmessages
    obtain ⟨e, hbuild, hleaves⟩ := hreports'.scripts bare _ engine rfl (List.isEmpty_iff.1 hnone) rfl
      rfl hengine hne
    exact ⟨e, hbuild, hreports'.kind e bare hbuild, by rw [hleaves]; exact hmessages⟩

end Bundler

end Bindery
