import Bindery.Bundle.Build
import Bindery.Proofs.Disk

/-!
# What a build comes to

* `Bundler.compile_eq_ok` : a bundle that is compiled comes from a graph whose failures a build can
  go on with, and from a transformation without failures.
* `Bundler.compile_changes` : it says what changed since the graph before.
* `Bundler.write_ok`, `Bundler.rebuild_ok`, `Bundler.build_ok` : what a build that is done has done.
-/

namespace Bindery

/-- A result that passes a check is there. -/
theorem exists_ok_of_any {result : Except ε α} {check : α → Bool}
    (h : result.toOption.any check = true) : ∃ a, result = .ok a ∧ check a = true := by
  cases result with
  | error e => exact absurd h Bool.false_ne_true
  | ok a => exact ⟨a, rfl, h⟩

namespace BuildError

theorem ofList_eq_none {errors : List BuildError} (h : ofList errors = none) : errors = [] := by
  unfold ofList at h
  split at h
  · rfl
  · simp at h
  · simp at h

end BuildError

namespace Bundler

variable {b : Bundler} {p : Project} {previous : Option Bundle} {touched : List ModuleId}
  {made : Bundle}

/-- A bundle is made from a graph and the outputs of its modules. -/
structure MadeFrom (b : Bundler) (built : GraphBuild) (batch : TransformBatch) (made : Bundle) :
    Prop where
  graph : made.graph = built.graph
  recoverable : ∀ e ∈ built.errors, b.isRecoverable e = true
  transformed : batch.errors = []
  outputs : b.minifyStage batch.outputs = .ok made.outputs
  chunks : made.chunks = built.graph.split b.profile batch.outputs.assetIds
  artifacts : made.artifacts = b.artifacts made.graph made.outputs made.chunks
  warnings : made.warnings = built.errors.map .resolution

/-- The graph that a bundle is made from. -/
def graphOf (b : Bundler) (p : Project) (previous : Option Bundle) (touched : List ModuleId) :
    GraphBuild :=
  b.graphBuilder.rebuild p b.profile.entries (previous.map (·.graph)) touched

/-- The outputs that a bundle is made from. Those of an earlier bundle are taken over unless the
differences affect them. -/
def batchOf (b : Bundler) (g : ModuleGraph) (previous : Option Bundle) : TransformBatch :=
  (Transformer.ofProfile b.profile b.registry).runIncremental g (previous.map fun s =>
    (s.outputs, (ChangeSet.between ((previous.map (·.graph)).getD .empty) g).affected))

/-- A bundle is compiled when it is made from these and says what changed since the graph before. -/
theorem compile_eq_ok : b.compile p previous touched = .ok made ↔
    MadeFrom b (b.graphOf p previous touched)
        (b.batchOf (b.graphOf p previous touched).graph previous) made ∧
      made.changes = .between ((previous.map (·.graph)).getD .empty) made.graph := by
  unfold compile
  simp only [bind, Except.bind, pure, Except.pure, throw, throwThe, MonadExceptOf.throw]
  rw [← graphOf, ← batchOf]
  generalize b.graphOf p previous touched = built
  generalize b.batchOf built.graph previous = batch
  constructor
  · intro h
    split at h
    · cases h
    · next hnone =>
      have hnil := BuildError.ofList_eq_none (Option.eq_none_iff_forall_ne_some.2 hnone)
      rcases List.append_eq_nil_iff.1 hnil with ⟨hfatal, htransformed⟩
      have hrecoverable : ∀ e ∈ built.errors, b.isRecoverable e = true := by
        simpa [List.filter_eq_nil_iff] using hfatal
      split at h
      · cases h
      · next outputs houtputs =>
        obtain rfl := Except.ok.inj h
        exact ⟨
          { graph := rfl
            recoverable := hrecoverable
            transformed := htransformed
            outputs := houtputs
            chunks := rfl
            artifacts := rfl
            warnings := by rw [List.filter_eq_self.2 hrecoverable] }, rfl⟩
  · rintro ⟨h, hchanges⟩
    have hfatal : built.errors.filter (fun e => !b.isRecoverable e) = [] := by
      simpa [List.filter_eq_nil_iff] using h.recoverable
    have hmade : made =
        { graph := built.graph
          outputs := made.outputs
          chunks := built.graph.split b.profile batch.outputs.assetIds
          artifacts := b.artifacts built.graph made.outputs
            (built.graph.split b.profile batch.outputs.assetIds)
          changes := .between ((previous.map (·.graph)).getD .empty) built.graph
          warnings := built.errors.map .resolution } := by
      rw [← h.graph, ← hchanges, ← h.warnings, h.graph, ← h.chunks, ← h.graph, ← h.artifacts]
    rw [hfatal, h.transformed, h.outputs, List.filter_eq_self.2 h.recoverable]
    exact congrArg Except.ok hmade.symm

/-- What a bundle that is compiled is made from. -/
theorem compile_spec (h : b.compile p previous touched = .ok made) :
    ∃ reuse, MadeFrom b
      (b.graphBuilder.rebuild p b.profile.entries (previous.map (·.graph)) touched)
      ((Transformer.ofProfile b.profile b.registry).runIncremental
        (b.graphBuilder.rebuild p b.profile.entries (previous.map (·.graph)) touched).graph reuse)
      made :=
  ⟨_, (compile_eq_ok.1 h).1⟩

/-- A bundle says what changed since the graph before. -/
theorem compile_changes (h : b.compile p previous touched = .ok made) :
    made.changes = .between ((previous.map (·.graph)).getD .empty) made.graph :=
  (compile_eq_ok.1 h).2

/-! ## Writing what was made -/

/-- Writes the manifest of a bundle, for profiles that have one. -/
def writeManifest (b : Bundler) (made : Bundle) : OutputM Unit :=
  match b.manifest? made with
  | some (path, m) => m.write path
  | none => pure ()

variable {d d' : Disk} {snapshot : Snapshot} {isRebuild : Bool} {last : Option Snapshot}

/-- What is known of a bundle once its files are written. -/
def snapshotOf (b : Bundler) (made : Bundle) (isRebuild : Bool) (written : List String) : Snapshot :=
  { made with
    manifest := (b.manifest? made).map (·.2)
    update := if isRebuild then b.update? made else none
    hints := b.hints made ((b.manifest? made).map (·.2))
    written }

/-- The files of a bundle are written first, then its manifest. -/
theorem write_eq (b : Bundler) (made : Bundle) (isRebuild : Bool) :
    b.write made isRebuild = (do
      let written ← Output.writeArtifacts b.profile.outputDirectory made.artifacts
      b.writeManifest made
      return b.snapshotOf made isRebuild written) := by
  unfold write writeManifest snapshotOf
  congr 1
  funext written
  cases b.manifest? made with
  | none => rfl
  | some m => rfl

/-- A bundle that was written. -/
theorem write_ok (h : b.write made isRebuild d = (.ok snapshot, d')) :
    snapshot.toBundle = made ∧ (snapshot.update = if isRebuild then b.update? made else none) ∧
      ∃ d₁, Output.writeArtifacts b.profile.outputDirectory made.artifacts d =
          (.ok snapshot.written, d₁) ∧
        b.writeManifest made d₁ = (.ok (), d') := by
  rw [write_eq] at h
  obtain ⟨written, d₁, hfiles, hrest⟩ := Work.bind_eq_ok.1 h
  obtain ⟨u, d₂, hmanifest, hmade⟩ := Work.bind_eq_ok.1 hrest
  cases hmade
  exact ⟨rfl, rfl, d₁, hfiles, hmanifest⟩

/-- A bundle is written when its files and its manifest are. -/
theorem write_eq_ok {written : List String} {d₁ : Disk}
    (hfiles : Output.writeArtifacts b.profile.outputDirectory made.artifacts d = (.ok written, d₁))
    (hmanifest : b.writeManifest made d₁ = (.ok (), d')) (isRebuild : Bool) :
    ∃ snapshot, b.write made isRebuild d = (.ok snapshot, d') := by
  rw [write_eq]
  exact ⟨_, Work.bind_eq_ok.2 ⟨written, d₁, hfiles, Work.bind_eq_ok.2 ⟨(), d', hmanifest, rfl⟩⟩⟩

/-- A build is done when it compiles and what it made is written. -/
theorem rebuild_ok :
    b.rebuild p last touched d = (.ok snapshot, d') ↔
      ∃ made, b.compile p (last.map (·.toBundle)) touched = .ok made ∧
        b.write made last.isSome d = (.ok snapshot, d') := by
  unfold rebuild
  cases hcompile : b.compile p (last.map (·.toBundle)) touched with
  | error e =>
    constructor
    · intro h
      cases h
    · rintro ⟨made, hmade, -⟩
      cases hmade
  | ok made =>
    constructor
    · intro h
      exact ⟨made, rfl, h⟩
    · rintro ⟨made', hmade, h⟩
      cases hmade
      exact h

/-- A build that does not compile has written nothing. -/
theorem rebuild_of_error {e : BuildError}
    (hcompile : b.compile p (last.map (·.toBundle)) touched = .error e) (d : Disk) :
    b.rebuild p last touched d = (.error e, d) := by
  unfold rebuild
  rw [hcompile]
  rfl

/-- A build from nothing may remove old output before it goes on. -/
theorem build_ok : b.build p d = (.ok snapshot, d') ↔
    ∃ d₁, b.prepare d = (.ok (), d₁) ∧ b.rebuild p none [] d₁ = (.ok snapshot, d') := by
  unfold build
  rw [Work.bind_eq_ok]
  constructor
  · rintro ⟨u, d₁, hprepare, hrebuild⟩
    exact ⟨d₁, hprepare, hrebuild⟩
  · rintro ⟨d₁, hprepare, hrebuild⟩
    exact ⟨(), d₁, hprepare, hrebuild⟩

/-- What a good build tells about the graph before. -/
theorem rebuild_spec (h : b.rebuild p last touched d = (.ok snapshot, d')) :
    snapshot.changes = .between ((last.map (·.graph)).getD .empty) snapshot.graph ∧
      (snapshot.update = if last.isSome then b.update? snapshot.toBundle else none) := by
  obtain ⟨made, hcompile, hwrite⟩ := rebuild_ok.1 h
  obtain ⟨hmade, hupdate, -⟩ := write_ok hwrite
  have hchanges := compile_changes hcompile
  rw [← hmade] at hchanges hupdate
  refine ⟨?_, hupdate⟩
  cases last with
  | none => exact hchanges
  | some s => exact hchanges

end Bundler

end Bindery
