import Bindery.Bundle.Build
import Bindery.Proofs.Bundle.Partition

/-!
# The files of a chunk

A build makes its files chunk by chunk, and the copies come last. A chunk has at most one style sheet
and one script, the script with its source map if the build makes these.

* `Artifact.mem_ofChunk`, `Artifact.chunk_of_mem_ofChunk` : what files a chunk has.
* `Artifact.of_mem_assets`, `Artifact.exists_mem_assets` : the copies are those that outputs ask for.
* `Bundler.filesOf` : the files of one chunk of a build.
* `Bundler.artifacts_eq` : the files of a build are those of its chunks and the copies.
* `Bundler.filesOf_eq_nil` : a chunk without modules has no files unless it starts an entry.
-/

namespace Bindery

namespace Artifact

/-! ## Chunks -/

variable {a : Artifact} {c : Chunk} {text : ChunkText} {hashed sourceMaps : Bool}
  {sources : List (ModuleId × String)} {script : String}

theorem mem_ofChunk : a ∈ ofChunk c text hashed sourceMaps ↔
    (∃ style, text.style = some style ∧ a = ofStyle c.name hashed style) ∨
      ∃ script, text.script = some script ∧
        a ∈ ofScript c hashed sourceMaps text.sources script := by
  unfold ofChunk
  rw [List.mem_append]
  refine or_congr ?_ ?_
  · rw [Option.mem_toList, Option.map_eq_some_iff]
    exact exists_congr fun style => and_congr_right fun _ => eq_comm
  · cases text.script with
    | none => simp
    | some script => simp

/-- What comes of a script is the script and its source map, and both carry the name of the chunk. -/
theorem of_mem_ofScript (h : a ∈ ofScript c hashed sourceMaps sources script) :
    (a.kind = .script ∨ a.kind = .sourceMap) ∧ a.chunk = some c.name := by
  unfold ofScript at h
  cases sourceMaps with
  | false =>
    obtain rfl := List.mem_singleton.1 h
    exact ⟨.inl rfl, rfl⟩
  | true =>
    rcases List.mem_cons.1 h with rfl | h
    · exact ⟨.inr rfl, rfl⟩
    · obtain rfl := List.mem_singleton.1 h
      exact ⟨.inl rfl, rfl⟩

/-- The files of a chunk carry its name. -/
theorem chunk_of_mem_ofChunk (h : a ∈ ofChunk c text hashed sourceMaps) : a.chunk = some c.name := by
  rcases mem_ofChunk.1 h with ⟨style, -, rfl⟩ | ⟨script, -, hscript⟩
  · rfl
  · exact (of_mem_ofScript hscript).2

theorem kind_ne_asset_of_mem_ofChunk (h : a ∈ ofChunk c text hashed sourceMaps) :
    a.kind ≠ .asset := by
  rcases mem_ofChunk.1 h with ⟨style, -, rfl⟩ | ⟨script, -, hscript⟩
  · exact fun hkind => nomatch hkind
  · rcases (of_mem_ofScript hscript).1 with hkind | hkind
    · simp [hkind]
    · simp [hkind]

/-! ## Copies -/

variable {outputs : ModuleOutputs} {file : String}

theorem subset_addAsset (done : List Artifact) (o : ModuleOutput) : done ⊆ addAsset done o := by
  unfold addAsset
  split
  · split
    · exact List.Subset.refl _
    · exact List.subset_append_left _ _
  · exact List.Subset.refl _

/-- Copies are only added. -/
theorem subset_foldl_addAsset (os : List ModuleOutput) (done : List Artifact) :
    done ⊆ os.foldl addAsset done := by
  induction os generalizing done with
  | nil => exact List.Subset.refl _
  | cons o r ih => exact List.Subset.trans (subset_addAsset done o) (ih _)

/-- A copy that is added is there then, by name. -/
theorem exists_mem_addAsset (done : List Artifact) (file : String) (bytes : ByteArray) :
    ∃ a ∈ addAsset done (.asset file bytes), a.file = file := by
  by_cases hdone : done.any (·.file = file) = true
  · rw [addAsset, if_pos hdone]
    simpa using hdone
  · rw [addAsset, if_neg hdone]
    exact ⟨_, List.mem_append_right _ (List.mem_singleton_self _), rfl⟩

theorem mem_addAsset {done : List Artifact} {o : ModuleOutput} (h : a ∈ addAsset done o) :
    a ∈ done ∨ a.kind = .asset ∧ a.chunk = none ∧ ∃ bytes, o = .asset a.file bytes := by
  cases o with
  | code kind text => exact .inl h
  | asset file bytes =>
    by_cases hdone : done.any (·.file = file) = true
    · rw [addAsset, if_pos hdone] at h
      exact .inl h
    · rw [addAsset, if_neg hdone] at h
      rcases List.mem_append.1 h with h | h
      · exact .inl h
      · obtain rfl := List.mem_singleton.1 h
        exact .inr ⟨rfl, rfl, bytes, rfl⟩

/-- A copy comes of an output that asks for it. -/
theorem of_mem_assets (h : a ∈ assets outputs) :
    a.kind = .asset ∧ a.chunk = none ∧ ∃ id bytes, (id, .asset a.file bytes) ∈ outputs := by
  suffices hfold : ∀ (os : List ModuleOutput) (done : List Artifact), a ∈ os.foldl addAsset done →
      a ∈ done ∨ a.kind = .asset ∧ a.chunk = none ∧ ∃ bytes, .asset a.file bytes ∈ os by
    rcases hfold _ [] h with hnil | ⟨hkind, hchunk, bytes, ho⟩
    · exact absurd hnil List.not_mem_nil
    · rcases List.mem_map.1 ho with ⟨⟨id, o⟩, hmem, rfl⟩
      exact ⟨hkind, hchunk, id, bytes, hmem⟩
  intro os
  induction os with
  | nil => exact fun done h => .inl h
  | cons o r ih =>
    intro done h
    rcases ih _ h with h | ⟨hkind, hchunk, bytes, ho⟩
    · rcases mem_addAsset h with h | ⟨hkind, hchunk, bytes, rfl⟩
      · exact .inl h
      · exact .inr ⟨hkind, hchunk, bytes, List.mem_cons_self⟩
    · exact .inr ⟨hkind, hchunk, bytes, List.mem_cons_of_mem _ ho⟩

/-- Every copy that an output asks for is there, by name. -/
theorem exists_mem_assets {id : ModuleId} {bytes : ByteArray}
    (h : (id, .asset file bytes) ∈ outputs) : ∃ a ∈ assets outputs, a.file = file := by
  rcases List.append_of_mem (List.mem_map_of_mem (f := (·.2)) h) with ⟨before, after, hsplit⟩
  rcases exists_mem_addAsset (before.foldl addAsset []) file bytes with ⟨a, ha, hfile⟩
  refine ⟨a, ?_, hfile⟩
  rw [assets, hsplit, List.foldl_append, List.foldl_cons]
  exact subset_foldl_addAsset after _ ha

end Artifact

namespace Bundler

/-! ## Builds -/

variable (b : Bundler) (g : ModuleGraph) (outputs : ModuleOutputs)

/-- The text of a chunk of a build. -/
def textOf (c : Chunk) : ChunkText := .ofChunk (.ofProfile b.profile) g outputs c

/-- The files of a chunk of a build. -/
def filesOf (c : Chunk) : List Artifact :=
  Artifact.ofChunk c (b.textOf g outputs c) (b.has .fingerprint) (b.has .sourceMaps)

theorem artifacts_eq (chunks : ChunkSet) :
    b.artifacts g outputs chunks =
      chunks.flatMap (b.filesOf g outputs) ++ Artifact.assets outputs := rfl

/-- Nothing comes of a chunk without modules that starts no entry. -/
theorem filesOf_eq_nil {c : Chunk} (hmodules : c.modules = []) (hentry : c.entry = none) :
    b.filesOf g outputs c = [] := by
  simp [filesOf, Artifact.ofChunk, textOf, ChunkText.ofChunk, ChunkText.parts, ChunkText.bodies,
    ChunkText.sheets, ChunkText.roots, Chunk.isEntry, hmodules, hentry]

end Bundler

/-! ## Two pages that share a module -/

namespace Split

/-- A bundler for production without merging. -/
def plainBundler : Bundler := { profile := unmerged, registry := Engine.builtins }

/-- What the modules of the two pages become. -/
def pageOutputs : ModuleOutputs :=
  [(⟨"help.js"⟩, .code .script "x"), (⟨"lazy.js"⟩, .code .script "x"),
    (⟨"main.js"⟩, .code .script "x"), (⟨"util.js"⟩, .code .script "x")]

end Split

end Bindery
