import Bindery.Proofs.Bundle.Build
import Bindery.Proofs.Bundle.Minify

/-!
# How builds fail

A build that fails gives one error, and its leaves are all that went wrong. Until files are written
only modules can fail: they are not found or cannot be read, transformed or made smaller. From then
on, and while old output is removed, only writing can fail. So the class of an error, which is told
by its leaves, also tells how far the build came.

* `BuildError.leaves_of_ofList` : the leaves of several errors in one.
* `BuildError.ToldByLeaves` : the class of an error and those of its leaves.
* `Bundler.assemble_eq_error` : when everything up to the files fails.
* `Bundler.rebuild_error`, `Bundler.build_error` : the two ways in which a build fails.
-/

namespace Bindery

namespace BuildError

variable {e : BuildError} {errors : List BuildError}

/-! ## Leaves -/

/-- An error that holds no others. -/
def IsSingle : BuildError → Prop
  | .aggregate _ => False
  | _ => True

theorem IsSingle.leaves_eq (h : e.IsSingle) : e.leaves = [e] := by
  cases e with
  | aggregate errors => exact h.elim
  | _ => rfl

theorem leavesOf_eq_self (h : ∀ e ∈ errors, e.IsSingle) : leavesOf errors = errors := by
  induction errors with
  | nil => rfl
  | cons e r ih =>
    obtain ⟨hfirst, hrest⟩ := List.forall_mem_cons.1 h
    rw [leavesOf, hfirst.leaves_eq, ih hrest]
    rfl

/-- The leaves of some errors in one are these errors. -/
theorem leaves_of_ofList (h : ofList errors = some e) (hsingle : ∀ e ∈ errors, e.IsSingle) :
    e.leaves = errors := by
  unfold ofList at h
  split at h
  · cases h
  · next only =>
    obtain rfl := Option.some.inj h
    exact (hsingle _ (List.mem_singleton_self _)).leaves_eq
  · obtain rfl := Option.some.inj h
    rw [leaves]
    exact leavesOf_eq_self hsingle

theorem exists_ofList (h : errors ≠ []) : ∃ e, ofList errors = some e := by
  cases hsome : ofList errors with
  | none => exact absurd (ofList_eq_none hsome) h
  | some e => exact ⟨e, rfl⟩

/-! ## Classes -/

/-- What can go wrong before anything is written. -/
structure IsEarly (e : BuildError) : Prop where
  single : e.IsSingle
  kind : e.kind = .resolution ∨ e.kind = .transform

/-- What can go wrong when something is written or removed. -/
structure IsLate (e : BuildError) : Prop where
  single : e.IsSingle
  kind : e.kind = .write

theorem kinds_eq_map (errors : List BuildError) : kinds errors = errors.map BuildError.kind := by
  induction errors with
  | nil => rfl
  | cons e r ih => rw [kinds, ih, List.map_cons]

/-- Of errors before anything is written, the first one decides on the class. -/
theorem kind_of_ofList (h : ofList errors = some e) (hearly : ∀ e ∈ errors, e.IsEarly) :
    errors.head?.map BuildError.kind = some e.kind := by
  unfold ofList at h
  split at h
  · cases h
  · obtain rfl := Option.some.inj h
    rfl
  · obtain rfl := Option.some.inj h
    have hnone : (kinds errors).find? (fun k => k = .config || k = .write) = none := by
      rw [kinds_eq_map, List.find?_eq_none]
      intro k hk
      obtain ⟨leaf, hleaf, rfl⟩ := List.mem_map.1 hk
      rcases (hearly leaf hleaf).kind with hkind | hkind
      · simp [hkind]
      · simp [hkind]
    rw [kind, hnone, Option.none_or, kinds_eq_map]
    cases errors with
    | nil => contradiction
    | cons first r => rfl

/-- The class of an error is told by its leaves: it is a class that no mode can live with when a leaf
has that class, and else the class of the first leaf. -/
structure ToldByLeaves (e : BuildError) : Prop where
  config : e.kind = .config ↔ ∃ leaf ∈ e.leaves, leaf.kind = .config
  write : e.kind = .write ↔ ∃ leaf ∈ e.leaves, leaf.kind = .write
  first : (∀ leaf ∈ e.leaves, leaf.kind ≠ .config ∧ leaf.kind ≠ .write) →
    e.leaves.head?.map BuildError.kind = some e.kind

theorem IsSingle.toldByLeaves (h : e.IsSingle) : e.ToldByLeaves := by
  constructor
  · simp [h.leaves_eq]
  · simp [h.leaves_eq]
  · simp [h.leaves_eq]

theorem toldByLeaves_of_ofList (h : ofList errors = some e) (hearly : ∀ e ∈ errors, e.IsEarly) :
    e.ToldByLeaves ∧ (e.kind = .resolution ∨ e.kind = .transform) := by
  have hleaves := leaves_of_ofList h fun e he => (hearly e he).single
  have hfirst := kind_of_ofList h hearly
  have hkind : e.kind = .resolution ∨ e.kind = .transform := by
    obtain ⟨first, hmem, hsame⟩ := Option.map_eq_some_iff.1 hfirst
    exact hsame ▸ (hearly first (List.mem_of_head? hmem)).kind
  have hleaf : ∀ leaf ∈ e.leaves, leaf.kind ≠ .config ∧ leaf.kind ≠ .write := by
    intro leaf hleaf
    rcases (hearly leaf (hleaves ▸ hleaf)).kind with hsoft | hsoft
    · simp [hsoft]
    · simp [hsoft]
  refine ⟨⟨?_, ?_, ?_⟩, hkind⟩
  · constructor
    · intro hconfig
      rcases hkind with hsoft | hsoft
      · simp [hconfig] at hsoft
      · simp [hconfig] at hsoft
    · rintro ⟨leaf, hmem, hconfig⟩
      exact absurd hconfig (hleaf leaf hmem).1
  · constructor
    · intro hwrite
      rcases hkind with hsoft | hsoft
      · simp [hwrite] at hsoft
      · simp [hwrite] at hsoft
    · rintro ⟨leaf, hmem, hwrite⟩
      exact absurd hwrite (hleaf leaf hmem).2
  · intro _
    rw [hleaves]
    exact hfirst

end BuildError

/-! ## Modules -/

namespace Transformer

variable {t : Transformer} {g : ModuleGraph} {m : Module} {e : BuildError}
  {reuse : Option (ModuleOutputs × List ModuleId)}

/-- A module fails before anything is written. -/
theorem isEarly_of_transformModule (h : t.transformModule m = .error e) : e.IsEarly := by
  cases isStepFailure_of_transformModule h with
  | unknown => exact ⟨trivial, .inr rfl⟩
  | failed => exact ⟨trivial, .inr rfl⟩
  | timedOut => exact ⟨trivial, .inr rfl⟩

/-- The failures of a pass are those of modules. -/
theorem exists_of_mem_errors_runWith {finish : List Module → List Module}
    (h : e ∈ (t.runWith finish g reuse).errors) : ∃ m, t.transformModule m = .error e := by
  have hfailed := (foldl_collect_eq (t.outcomes (finish (workOf g reuse))) (startOfPass g reuse)).2
  rw [(runWith_eq finish t g reuse).2, List.mem_mergeSort, hfailed, startOfPass, List.nil_append,
    failed_outcomes] at h
  obtain ⟨m, -, hm⟩ := List.mem_filterMap.1 h
  exact ⟨m, failure?_eq_some_iff.1 hm⟩

end Transformer

namespace Bundler

variable {b : Bundler} {built : GraphBuild} {batch : TransformBatch} {changes : ChangeSet}
  {made : Bundle} {outputs : ModuleOutputs} {name : String} {engine : Engine} {e : BuildError}

/-! ## Scripts -/

/-- The failures of making scripts smaller, in the order of the scripts. -/
def minifyFailures (b : Bundler) (name : String) (engine : Engine) (outputs : ModuleOutputs) :
    List BuildError :=
  (scripts outputs).filterMap fun s =>
    match b.minifyScript name engine s.1 s.2 with
    | .ok _ => none
    | .error e => some e

theorem mem_minifyFailures : e ∈ b.minifyFailures name engine outputs ↔
    ∃ id code, (id, code) ∈ scripts outputs ∧ b.minifyScript name engine id code = .error e := by
  unfold minifyFailures
  rw [List.mem_filterMap]
  constructor
  · rintro ⟨⟨id, code⟩, hscript, hfailed⟩
    refine ⟨id, code, hscript, ?_⟩
    cases houtcome : b.minifyScript name engine id code with
    | ok o => simp [houtcome] at hfailed
    | error e' => simpa [houtcome] using hfailed
  · rintro ⟨id, code, hscript, hfailed⟩
    exact ⟨(id, code), hscript, by simp [hfailed]⟩

/-- A script fails to be made smaller by an error that names it. -/
theorem exists_of_minifyScript_error {id : ModuleId} {code : String}
    (h : b.minifyScript name engine id code = .error e) : ∃ detail, e = .minify id name detail := by
  unfold minifyScript at h
  split at h
  · cases h
  · exact ⟨_, (Except.error.inj h).symm⟩
  · exact ⟨_, (Except.error.inj h).symm⟩

theorem isEarly_of_mem_minifyFailures (h : e ∈ b.minifyFailures name engine outputs) :
    e.IsEarly := by
  obtain ⟨id, code, -, hfailed⟩ := mem_minifyFailures.1 h
  obtain ⟨detail, rfl⟩ := exists_of_minifyScript_error hfailed
  exact ⟨trivial, .inr rfl⟩

/-- With an engine that is there, making scripts smaller fails with all failures. -/
theorem minify_eq_error (hengine : b.registry.get? name = some engine) :
    b.minify name outputs = .error e ↔
      BuildError.ofList (b.minifyFailures name engine outputs) = some e := by
  unfold minify
  split
  · next hnone =>
    simp [minifyFailures, hnone, BuildError.ofList]
  · next hmissing =>
    rw [hengine] at hmissing
    cases hmissing
  · next other hother _ =>
    obtain rfl := Option.some.inj (hengine.symm.trans hother)
    dsimp only
    generalize hfailures : List.filterMap _ (List.map _ (scripts outputs)) = failures
    have hsame : failures = b.minifyFailures name engine outputs := by
      rw [← hfailures, List.filterMap_map]
      refine List.filterMap_congr ?_
      rintro ⟨id, code⟩ -
      simp only [Function.comp]
      cases b.minifyScript name engine id code with
      | ok o => rfl
      | error e => rfl
    rw [hsame]
    cases BuildError.ofList (b.minifyFailures name engine outputs) with
    | none => simp
    | some e => simp

/-- The minifying stage fails before anything is written. -/
theorem toldByLeaves_of_minifyStage (h : b.minifyStage outputs = .error e) :
    e.ToldByLeaves ∧ (e.kind = .resolution ∨ e.kind = .transform) := by
  unfold minifyStage at h
  split at h
  · next s _ =>
    split at h
    · cases hengine : b.registry.get? s.minimizer with
      | some engine =>
        rw [minify_eq_error hengine] at h
        exact BuildError.toldByLeaves_of_ofList h fun e he => isEarly_of_mem_minifyFailures he
      | none =>
        unfold minify at h
        rw [hengine] at h
        split at h
        · cases h
        · obtain rfl := Except.error.inj h
          exact ⟨BuildError.IsSingle.toldByLeaves trivial, .inr rfl⟩
        · next hother _ => cases hother
    · cases h
  · cases h

/-! ## Everything up to the files -/

/-- The failures of a graph that a build cannot go on with. -/
def fatal (b : Bundler) (built : GraphBuild) : List BuildError :=
  (built.errors.filter fun e => !b.isRecoverable e).map .resolution

/-- Everything up to the files, from a graph and what its modules became. -/
def assemble (b : Bundler) (built : GraphBuild) (batch : TransformBatch) (changes : ChangeSet) :
    Except BuildError Bundle := do
  if let some e := BuildError.ofList (b.fatal built ++ batch.errors) then throw e
  let outputs ← b.minifyStage batch.outputs
  let chunks := built.graph.split b.profile batch.outputs.assetIds
  return { graph := built.graph, outputs, chunks
           artifacts := b.artifacts built.graph outputs chunks, changes
           warnings := (built.errors.filter b.isRecoverable).map .resolution }

theorem compile_eq_assemble (b : Bundler) (p : Project) (previous : Option Bundle)
    (touched : List ModuleId) :
    b.compile p previous touched =
      b.assemble (b.graphOf p previous touched) (b.batchOf (b.graphOf p previous touched).graph previous)
        (.between ((previous.map (·.graph)).getD .empty) (b.graphOf p previous touched).graph) :=
  rfl

theorem isEarly_of_mem_fatal (h : e ∈ b.fatal built) : e.IsEarly := by
  obtain ⟨cause, -, rfl⟩ := List.mem_map.1 h
  exact ⟨trivial, .inl rfl⟩

/-- Everything up to the files fails because of modules, or else of scripts that are not made
smaller. -/
theorem assemble_eq_error : b.assemble built batch changes = .error e ↔
    BuildError.ofList (b.fatal built ++ batch.errors) = some e ∨
      b.fatal built ++ batch.errors = [] ∧ b.minifyStage batch.outputs = .error e := by
  unfold assemble
  simp only [bind, Except.bind, pure, Except.pure, throw, throwThe, MonadExceptOf.throw]
  cases herrors : BuildError.ofList (b.fatal built ++ batch.errors) with
  | some first =>
    have hne : b.fatal built ++ batch.errors ≠ [] := by
      intro hnil
      rw [hnil] at herrors
      cases herrors
    simp [hne]
  | none =>
    have hnil := BuildError.ofList_eq_none herrors
    cases hminify : b.minifyStage batch.outputs with
    | error first => simp [hnil]
    | ok outputs => simp

/-- What comes of everything up to the files, where nothing fails. -/
theorem warnings_of_assemble (h : b.assemble built batch changes = .ok made) :
    b.fatal built = [] ∧ made.warnings = (built.errors.filter b.isRecoverable).map .resolution ∧
      made.graph = built.graph := by
  unfold assemble at h
  simp only [bind, Except.bind, pure, Except.pure, throw, throwThe, MonadExceptOf.throw] at h
  split at h
  · cases h
  · next hnone =>
    have hnil := BuildError.ofList_eq_none (Option.eq_none_iff_forall_ne_some.2 hnone)
    split at h
    · cases h
    · obtain rfl := Except.ok.inj h
      exact ⟨(List.append_eq_nil_iff.1 hnil).1, rfl, rfl⟩

/-- A build that fails before anything is written says so by the class of its error. -/
theorem toldByLeaves_of_assemble (hbatch : ∀ e ∈ batch.errors, e.IsEarly)
    (h : b.assemble built batch changes = .error e) :
    e.ToldByLeaves ∧ (e.kind = .resolution ∨ e.kind = .transform) := by
  rcases assemble_eq_error.1 h with hmodules | ⟨-, hscripts⟩
  · refine BuildError.toldByLeaves_of_ofList hmodules ?_
    intro e he
    rcases List.mem_append.1 he with he | he
    · exact isEarly_of_mem_fatal he
    · exact hbatch e he
  · exact toldByLeaves_of_minifyStage hscripts

end Bundler

/-! ## Writing and removing -/

namespace Output

open BuildError

variable {α β : Type} {x : OutputM α} {f : α → OutputM β}

/-- Work that fails, if at all, as writing does. -/
def FailsLate (x : OutputM α) : Prop := ∀ d e d', x d = (.error e, d') → e.IsLate

theorem FailsLate.pure (a : α) : FailsLate (Pure.pure a : OutputM α) := by
  intro d e d' h
  cases h

theorem FailsLate.get : FailsLate (MonadState.get : OutputM Disk) := by
  intro d e d' h
  cases h

theorem FailsLate.bind (hx : FailsLate x) (hf : ∀ a, FailsLate (f a)) : FailsLate (x >>= f) := by
  intro d e d' h
  rcases Work.bind_eq_error.1 h with h | ⟨a, t, -, h⟩
  · exact hx d e d' h
  · exact hf a t e d' h

theorem failsLate_forPath (path : String) (work : DiskM α) : FailsLate (forPath path work) := by
  intro d e d' h
  unfold forPath at h
  split at h
  · cases h
  · cases h
    exact ⟨trivial, rfl⟩

theorem failsLate_target (directory file : String) :
    FailsLate (writeArtifacts.liftExcept (target? directory file)) := by
  intro d e d' h
  have hresult : target? directory file = .error e := congrArg Prod.fst h
  unfold target? at hresult
  split at hresult
  · obtain rfl := Except.error.inj hresult
    exact ⟨trivial, rfl⟩
  · dsimp only at hresult
    split at hresult
    · obtain rfl := Except.error.inj hresult
      exact ⟨trivial, rfl⟩
    · cases hresult

theorem failsLate_mapM {f : α → OutputM β} (hf : ∀ a, FailsLate (f a)) (as : List α) :
    FailsLate (as.mapM f) := by
  induction as with
  | nil => exact .pure []
  | cons a r ih =>
    rw [List.mapM_cons]
    exact (hf a).bind fun _ => ih.bind fun _ => .pure _

theorem failsLate_writeAllBeside (done : List String) (items : List (String × ByteArray)) :
    FailsLate (writeAllBeside done items) := by
  induction items generalizing done with
  | nil => exact .pure ()
  | cons item r ih => exact (failsLate_forPath item.1 _).bind fun _ => ih _

theorem failsLate_placeAll (targets : List String) : FailsLate (placeAll targets) := by
  induction targets with
  | nil => exact .pure ()
  | cons target r ih => exact (failsLate_forPath target _).bind fun _ => ih

theorem failsLate_writeArtifacts (directory : String) (artifacts : List Artifact) :
    FailsLate (writeArtifacts directory artifacts) := by
  refine FailsLate.get.bind fun d => ?_
  refine (failsLate_forPath _ _).bind fun _ => ?_
  refine FailsLate.bind ?_ fun targets => ?_
  · exact failsLate_mapM (fun a => failsLate_target _ a.file) artifacts
  refine (failsLate_writeAllBeside [] _).bind fun _ => ?_
  exact (failsLate_placeAll targets).bind fun _ => .pure _

theorem failsLate_writeDurably (path : String) (bytes : ByteArray) :
    FailsLate (writeDurably path bytes) := by
  unfold writeDurably
  cases Path.parent? path with
  | none => exact (FailsLate.pure _).bind fun _ => failsLate_forPath path _
  | some directory => exact (failsLate_forPath _ _).bind fun _ => failsLate_forPath path _

end Output

namespace Bundler

open Output

variable {b : Bundler} {p : Project} {last : Option Snapshot} {touched : List ModuleId} {e : BuildError}
  {snapshot : Snapshot} {d d' : Disk}

theorem failsLate_prepare (b : Bundler) : FailsLate b.prepare := by
  unfold prepare
  split
  · exact failsLate_forPath _ _
  · exact .pure ()

theorem failsLate_write (b : Bundler) (made : Bundle) (isRebuild : Bool) :
    FailsLate (b.write made isRebuild) := by
  rw [write_eq]
  refine (failsLate_writeArtifacts _ _).bind fun written => ?_
  refine FailsLate.bind ?_ fun _ => .pure _
  unfold writeManifest
  split
  · exact failsLate_writeDurably _ _
  · exact .pure ()

/-! ## Builds -/

/-- A bundle that does not compile says so by the class of the error. -/
theorem toldByLeaves_of_compile {previous : Option Bundle}
    (h : b.compile p previous touched = .error e) :
    e.ToldByLeaves ∧ (e.kind = .resolution ∨ e.kind = .transform) := by
  rw [compile_eq_assemble] at h
  refine toldByLeaves_of_assemble ?_ h
  intro e he
  obtain ⟨m, hm⟩ := Transformer.exists_of_mem_errors_runWith he
  exact Transformer.isEarly_of_transformModule hm

/-- A build on what was built before fails before anything is written, and leaves the disk as it is,
or fails in writing. -/
theorem rebuild_error (h : b.rebuild p last touched d = (.error e, d')) :
    (b.compile p (last.map (·.toBundle)) touched = .error e ∧ d' = d) ∨ e.IsLate := by
  cases hcompile : b.compile p (last.map (·.toBundle)) touched with
  | error first =>
    rw [rebuild_of_error hcompile] at h
    cases h
    exact .inl ⟨rfl, rfl⟩
  | ok made =>
    unfold rebuild at h
    rw [hcompile] at h
    exact .inr (failsLate_write b made last.isSome d e d' h)

/-- A build from nothing fails before anything is written, but after old output was removed, or fails
in removing or in writing. -/
theorem build_error (h : b.build p d = (.error e, d')) :
    (b.compile p none [] = .error e ∧ b.prepare d = (.ok (), d')) ∨ e.IsLate := by
  unfold build at h
  rcases Work.bind_eq_error.1 h with hprepare | ⟨u, t, hprepare, hrebuild⟩
  · exact .inr (failsLate_prepare b d e d' hprepare)
  · rcases rebuild_error hrebuild with ⟨hcompile, rfl⟩ | hlate
    · exact .inl ⟨hcompile, hprepare⟩
    · exact .inr hlate

end Bundler

end Bindery
