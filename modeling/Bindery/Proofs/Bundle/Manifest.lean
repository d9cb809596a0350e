import Bindery.Proofs.Bundle.ChunkFile
import Bindery.Proofs.Bundle.ChunkName
import Bindery.Proofs.Bundle.Linking
import Bindery.Proofs.Bundle.Minify

/-!
# What a manifest tells

The manifest of a build for production lists for every entry the files of the chunks that the entry
needs, and the copies that it can reach. The files of a chunk are found by its name, and since no two
chunks share a name they are its own. Nothing is listed that the build did not make, and where every
module is reached from some entry no file is left out but the source maps.

* `Bundler.filesOf_artifacts` : the files that carry the name of a chunk are its own.
* `Manifest.mem_copiesOf` : the copies that an entry can reach.
* `Split.exists_forEntry_of_mem_filesOf` : a chunk with a file is needed by some entry.
* `Split.split_manifest_exact` : the manifest of a build for production is exact.
-/

namespace Bindery

/-- Files that come of code: what a page loads to run. -/
def ArtifactKind.isCode : ArtifactKind → Bool
  | .script => true
  | .style => true
  | .sourceMap => false
  | .asset => false

/-- How a manifest lists a file. -/
def Artifact.listed (publicPath : String) (now : Bool) (a : Artifact) : ManifestFile :=
  { path := publicPath ++ a.file, isEntryPoint := now, kind := a.kind }

/-! ## Files by the name of their chunk -/

namespace Bundler

variable (b : Bundler) (g : ModuleGraph) (outputs : ModuleOutputs)

/-- The files of a chunk that a page loads, the style sheet first. -/
def pageFiles (c : Chunk) : List Artifact :=
  (b.filesOf g outputs c).filter (·.kind = .style)
    ++ (b.filesOf g outputs c).filter (·.kind = .script)

variable {b g outputs}

theorem mem_pageFiles {c : Chunk} {a : Artifact} :
    a ∈ b.pageFiles g outputs c ↔ a ∈ b.filesOf g outputs c ∧ a.kind.isCode = true := by
  have hkind : a.kind.isCode = true ↔ a.kind = .style ∨ a.kind = .script := by
    cases a.kind <;> decide
  simp only [pageFiles, List.mem_append, List.mem_filter, decide_eq_true_eq, hkind, and_or_left]

/-- Where chunks have names of their own, the files that carry the name of a chunk are its own. -/
theorem filter_artifacts {chunks : ChunkSet} (hnames : (chunks.map (·.name)).Nodup) {c : Chunk}
    (hc : c ∈ chunks) :
    (b.artifacts g outputs chunks).filter (fun a => a.chunk = some c.name) =
      b.filesOf g outputs c := by
  have hassets : (Artifact.assets outputs).filter (fun a => a.chunk = some c.name) = [] := by
    refine List.filter_eq_nil_iff.2 fun a ha => ?_
    simp [(Artifact.of_mem_assets ha).2.1]
  have hown : (b.filesOf g outputs c).filter (fun a => a.chunk = some c.name) =
      b.filesOf g outputs c := by
    refine List.filter_eq_self.2 fun a ha => ?_
    simp [Artifact.chunk_of_mem_ofChunk ha]
  have hother : ∀ others : ChunkSet, c.name ∉ others.map (·.name) →
      others.flatMap (fun x => (b.filesOf g outputs x).filter fun a => a.chunk = some c.name) =
        [] := by
    intro others hnotin
    refine List.flatMap_eq_nil_iff.2 fun x hx => List.filter_eq_nil_iff.2 fun a ha => ?_
    have hne : x.name ≠ c.name := by
      rintro heq
      exact hnotin (heq ▸ List.mem_map_of_mem hx)
    simp [Artifact.chunk_of_mem_ofChunk ha, hne]
  rcases List.append_of_mem hc with ⟨before, after, rfl⟩
  rw [List.map_append, List.map_cons, List.nodup_middle, List.nodup_cons, List.mem_append,
    not_or] at hnames
  rw [artifacts_eq, List.filter_append, hassets, List.append_nil, List.filter_flatMap,
    List.flatMap_append, List.flatMap_cons, hother before hnames.1.1, hother after hnames.1.2, hown,
    List.nil_append, List.append_nil]

/-- A manifest finds the files of a chunk by its name. -/
theorem filesOf_artifacts {chunks : ChunkSet} (hnames : (chunks.map (·.name)).Nodup) {c : Chunk}
    (hc : c ∈ chunks) :
    Manifest.filesOf (b.artifacts g outputs chunks) c.name = b.pageFiles g outputs c := by
  simp only [Manifest.filesOf, filter_artifacts hnames hc, pageFiles]

end Bundler

/-! ## Copies -/

namespace Manifest

variable {g : ModuleGraph} {outputs : ModuleOutputs} {roots : List ModuleId} {file : String}

theorem mem_eraseReps {l : List String} : file ∈ l.eraseReps ↔ file ∈ l := by
  -- the element that was kept last stands apart from those kept before it
  have hloop : ∀ (l : List String) (last : String) (done : List String),
      file ∈ List.eraseRepsBy.loop (· == ·) last l done ↔ file = last ∨ file ∈ l ∨ file ∈ done := by
    intro l
    induction l with
    | nil =>
      intro last done
      simp [List.eraseRepsBy.loop, or_comm]
    | cons x r ih =>
      intro last done
      unfold List.eraseRepsBy.loop
      split
      · next heq =>
        obtain rfl : last = x := by simpa using heq
        rw [ih, List.mem_cons]
        tauto
      · rw [ih, List.mem_cons, List.mem_cons]
        tauto
  cases l with
  | nil => rfl
  | cons x r =>
    show file ∈ List.eraseRepsBy.loop (· == ·) x r [] ↔ _
    rw [hloop, List.mem_cons]
    simp

theorem mem_copiesOf : file ∈ copiesOf g outputs roots ↔
    ∃ id ∈ g.fullClosure roots, ∃ bytes, outputs.get? id = some (.asset file bytes) := by
  simp only [copiesOf, mem_eraseReps, List.mem_mergeSort, List.mem_filterMap]
  refine exists_congr fun id => and_congr_right fun _ => ?_
  cases outputs.get? id with
  | none => simp
  | some o =>
    cases o with
    | code kind text => simp
    | asset other bytes => simp

/-- The manifest tells what a build with some chunks came to, no less and no more. -/
structure Exact (m : Manifest) (b : Bundler) (g : ModuleGraph) (outputs : ModuleOutputs)
    (chunks : ChunkSet) (publicPath : String) : Prop where
  /-- The entries of the graph are listed, in order. -/
  entries : m.map (·.1) = g.entries.map (·.1)
  /-- An entry has the scripts and style sheets of the chunks that it needs, each with whether it is
  needed from the start. -/
  code : ∀ x ∈ m, x.2.filter (·.kind.isCode) =
    (chunks.forEntry g x.1).flatMap fun i =>
      (chunks[i.1]?.toList.flatMap (b.pageFiles g outputs)).map (Artifact.listed publicPath i.2)
  /-- What is listed was made. -/
  made : ∀ x ∈ m, ∀ f ∈ x.2, ∃ a ∈ b.artifacts g outputs chunks,
    f.path = publicPath ++ a.file ∧ f.kind = a.kind
  /-- What was made is listed, but for source maps. -/
  complete : (∀ id, g.contains id = true → ∃ e ∈ g.entries, id ∈ g.fullClosure e.2) →
    ∀ a ∈ b.artifacts g outputs chunks, a.kind ≠ .sourceMap →
      ∃ x ∈ m, ∃ f ∈ x.2, f.path = publicPath ++ a.file ∧ f.kind = a.kind

end Manifest

namespace ChunkSet

theorem lt_of_mem_forEntry {chunks : ChunkSet} {g : ModuleGraph} {e : String} {i : Nat × Bool}
    (h : i ∈ chunks.forEntry g e) : i.1 < chunks.length := by
  cases hroots : g.entries.lookup e with
  | none => simp [forEntry, hroots] at h
  | some roots =>
    have hat : ∃ c, chunks[i.1]? = some c := by
      rcases (exists_mem_forEntry_iff hroots).1 ⟨i.2, h⟩ with hown | ⟨id, -, howner⟩
      · rcases entryIndex?_spec hown with ⟨c, hc, -⟩
        exact ⟨c, hc⟩
      · rcases owner?_spec howner with ⟨c, hc, -⟩
        exact ⟨c, hc⟩
    rcases hat with ⟨c, hc⟩
    exact (List.getElem?_eq_some_iff.1 hc).1

end ChunkSet

/-! ## The files of an entry -/

namespace Manifest

variable {b : Bundler} {g : ModuleGraph} {outputs : ModuleOutputs} {chunks : ChunkSet}
  {publicPath : String}

/-- The files of an entry are those of its chunks and the copies. -/
theorem ofEntry_eq (hnames : (chunks.map (·.name)).Nodup) (e : String) :
    ofEntry g chunks (b.artifacts g outputs chunks) outputs publicPath e =
      ((chunks.forEntry g e).flatMap fun i =>
        (chunks[i.1]?.toList.flatMap (b.pageFiles g outputs)).map (Artifact.listed publicPath i.2))
      ++ (copiesOf g outputs ((g.entries.lookup e).getD [])).map fun file =>
        { path := publicPath ++ file, isEntryPoint := false, kind := .asset } := by
  refine congrArg (· ++ _) (List.flatMap_congr fun i hi => ?_)
  have hlt := ChunkSet.lt_of_mem_forEntry hi
  have hname : (chunks.map (·.name)).getD i.1 "" = chunks[i.1].name := by
    simp [List.getD, hlt]
  show (filesOf _ ((chunks.map (·.name)).getD i.1 "")).map (Artifact.listed publicPath i.2) = _
  rw [hname, Bundler.filesOf_artifacts hnames (List.getElem_mem hlt), List.getElem?_eq_getElem hlt,
    Option.toList_some, List.flatMap_singleton]

/-- Of the files of an entry those of its chunks are code, and the copies are not. -/
theorem filter_ofEntry (hnames : (chunks.map (·.name)).Nodup) (e : String) :
    (ofEntry g chunks (b.artifacts g outputs chunks) outputs publicPath e).filter (·.kind.isCode) =
      (chunks.forEntry g e).flatMap fun i =>
        (chunks[i.1]?.toList.flatMap (b.pageFiles g outputs)).map
          (Artifact.listed publicPath i.2) := by
  rw [ofEntry_eq hnames, List.filter_append]
  refine (congrArg₂ (· ++ ·) (List.filter_eq_self.2 ?_) (List.filter_eq_nil_iff.2 ?_)).trans
    (List.append_nil _)
  · intro f hf
    rcases List.mem_flatMap.1 hf with ⟨i, -, hf⟩
    rcases List.mem_map.1 hf with ⟨a, ha, rfl⟩
    rcases List.mem_flatMap.1 ha with ⟨c, -, ha⟩
    exact (Bundler.mem_pageFiles.1 ha).2
  · intro f hf
    rcases List.mem_map.1 hf with ⟨file, -, rfl⟩
    exact Bool.false_ne_true

/-- A file of a chunk that an entry needs is listed for the entry. -/
theorem exists_mem_ofEntry (hnames : (chunks.map (·.name)).Nodup) {e : String} {i : Nat}
    {now : Bool} {c : Chunk} {a : Artifact} (hlisted : (i, now) ∈ chunks.forEntry g e)
    (hc : chunks[i]? = some c) (ha : a ∈ b.pageFiles g outputs c) :
    a.listed publicPath now ∈
      ofEntry g chunks (b.artifacts g outputs chunks) outputs publicPath e := by
  rw [ofEntry_eq hnames]
  refine List.mem_append_left _ (List.mem_flatMap.2 ⟨(i, now), hlisted, ?_⟩)
  refine List.mem_map_of_mem ?_
  rw [hc, Option.toList_some, List.flatMap_singleton]
  exact ha

/-- What is listed for an entry was made. -/
theorem exists_artifact_of_mem_ofEntry (hnames : (chunks.map (·.name)).Nodup) {e : String}
    {f : ManifestFile}
    (hf : f ∈ ofEntry g chunks (b.artifacts g outputs chunks) outputs publicPath e) :
    ∃ a ∈ b.artifacts g outputs chunks, f.path = publicPath ++ a.file ∧ f.kind = a.kind := by
  rw [ofEntry_eq hnames] at hf
  rw [Bundler.artifacts_eq]
  rcases List.mem_append.1 hf with hf | hf
  · rcases List.mem_flatMap.1 hf with ⟨i, -, hf⟩
    rcases List.mem_map.1 hf with ⟨a, ha, rfl⟩
    rcases List.mem_flatMap.1 ha with ⟨c, hc, ha⟩
    have hmem : c ∈ chunks := List.mem_of_getElem? (Option.mem_toList.1 hc)
    have hmade := List.mem_flatMap.2 ⟨c, hmem, (Bundler.mem_pageFiles.1 ha).1⟩
    exact ⟨a, List.mem_append_left _ hmade, rfl, rfl⟩
  · rcases List.mem_map.1 hf with ⟨file, hfile, rfl⟩
    rcases mem_copiesOf.1 hfile with ⟨id, -, bytes, ho⟩
    rcases Artifact.exists_mem_assets (ModuleOutputs.mem_of_get? ho) with ⟨a, ha, rfl⟩
    exact ⟨a, List.mem_append_right _ ha, rfl, (Artifact.of_mem_assets ha).1.symm⟩

end Manifest

/-! ## Builds for production -/

namespace Split

variable {b : Bundler} {g : ModuleGraph} {settings : SplitSettings} {assets : List ModuleId}
  {outputs : ModuleOutputs} {c : Chunk} {i : Nat}

/-- Where every module is reached from some entry, a chunk that something comes of is needed by some
entry: the one that it starts, or one that reaches a module of it. -/
theorem exists_forEntry_of_mem_filesOf
    (hreached : ∀ id, g.contains id = true → ∃ e ∈ g.entries, id ∈ g.fullClosure e.2)
    (hc : (shared g settings assets)[i]? = some c) {a : Artifact}
    (ha : a ∈ b.filesOf g outputs c) :
    ∃ e ∈ g.entries, ∃ now, (i, now) ∈ (shared g settings assets).forEntry g e.1 := by
  have hmem := List.mem_of_getElem? hc
  have hpartition := shared_partitions g settings assets
  cases hentry : c.entry with
  | some f =>
    have hown := entryIndex?_eq hc hentry
    rcases exists_entry_slot hmem hentry with ⟨k, ids, hslot, -, hname⟩
    have hlt := lt_of_entry_mem_finalSlots g assets settings hslot
    have hf : g.entries[k].1 = f := by
      simpa [EntryMap.names, List.getD, hlt] using hname
    have he : g.entries[k] ∈ g.entries := List.getElem_mem hlt
    refine ⟨g.entries[k], he, (ChunkSet.exists_mem_forEntry_iff (ModuleGraph.lookup_of_mem he)).2 ?_⟩
    exact .inl (hf ▸ hown)
  | none =>
    obtain ⟨id, hid⟩ : ∃ id, id ∈ c.modules := by
      refine List.exists_mem_of_ne_nil _ fun hnil => ?_
      rw [b.filesOf_eq_nil g outputs hnil hentry] at ha
      exact List.not_mem_nil ha
    rcases hreached id (hpartition.onlyCode c hmem id hid).1 with ⟨e, he, hfull⟩
    refine ⟨e, he, (ChunkSet.exists_mem_forEntry_iff (ModuleGraph.lookup_of_mem he)).2 ?_⟩
    exact .inr ⟨id, hfull, (hpartition.owned id i).2 ⟨c, hc, hid⟩⟩

/-- A script or a style sheet of a chunk is listed for some entry. -/
theorem exists_listed_of_mem_filesOf
    (hreached : ∀ id, g.contains id = true → ∃ e ∈ g.entries, id ∈ g.fullClosure e.2)
    (hc : c ∈ shared g settings assets) {a : Artifact} (ha : a ∈ b.filesOf g outputs c)
    (hkind : a.kind ≠ .sourceMap) (publicPath : String) :
    ∃ e ∈ g.entries, ∃ now, a.listed publicPath now ∈ Manifest.ofEntry g (shared g settings assets)
      (b.artifacts g outputs (shared g settings assets)) outputs publicPath e.1 := by
  have hcode : a.kind.isCode = true := by
    have hasset := Artifact.kind_ne_asset_of_mem_ofChunk ha
    revert hkind hasset
    cases a.kind <;> decide
  rcases List.getElem?_of_mem hc with ⟨i, hi⟩
  rcases exists_forEntry_of_mem_filesOf hreached hi ha with ⟨e, he, now, hneeded⟩
  refine ⟨e, he, now, ?_⟩
  exact Manifest.exists_mem_ofEntry (nodup_names_shared g settings assets) hneeded hi
    (Bundler.mem_pageFiles.2 ⟨ha, hcode⟩)

/-- A copy is listed for some entry. -/
theorem exists_listed_of_mem_assets
    (hreached : ∀ id, g.contains id = true → ∃ e ∈ g.entries, id ∈ g.fullClosure e.2)
    (hnodup : outputs.ids.Nodup) (hof : outputs.ids ⊆ g.ids) {a : Artifact}
    (ha : a ∈ Artifact.assets outputs) (publicPath : String) :
    ∃ e ∈ g.entries, a.listed publicPath false ∈ Manifest.ofEntry g (shared g settings assets)
      (b.artifacts g outputs (shared g settings assets)) outputs publicPath e.1 := by
  rcases Artifact.of_mem_assets ha with ⟨hasset, -, id, bytes, ho⟩
  have hid : id ∈ outputs.ids := List.mem_map_of_mem ho
  rcases hreached id (ModuleGraph.contains_iff.2 (hof hid)) with ⟨e, he, hfull⟩
  refine ⟨e, he, ?_⟩
  rw [Manifest.ofEntry_eq (nodup_names_shared g settings assets), ModuleGraph.lookup_of_mem he,
    Option.getD_some]
  refine List.mem_append_right _ (List.mem_map.2 ⟨a.file, Manifest.mem_copiesOf.2 ?_, ?_⟩)
  · exact ⟨id, hfull, bytes, ModuleOutputs.get?_of_mem hnodup ho⟩
  · rw [Artifact.listed, hasset]

/-- The manifest of a build for production is exact, for every graph, all outputs of its modules and
wherever the files are served. -/
theorem split_manifest_exact (b : Bundler) (hproduction : b.profile.split? = some settings)
    (g : ModuleGraph) (assets : List ModuleId) (hnodup : outputs.ids.Nodup)
    (hof : outputs.ids ⊆ g.ids) (publicPath : String) :
    (Manifest.ofBuild (g.entries.map (·.1)) g (g.split b.profile assets)
      (b.artifacts g outputs (g.split b.profile assets)) outputs publicPath).Exact b g outputs
      (g.split b.profile assets) publicPath := by
  simp only [ModuleGraph.split, hproduction]
  have hnames := nodup_names_shared g settings assets
  constructor
  · rw [Manifest.ofBuild, List.map_map]
    exact List.map_id _
  · intro x hx
    rcases List.mem_map.1 hx with ⟨e, -, rfl⟩
    exact Manifest.filter_ofEntry hnames e
  · intro x hx f hf
    rcases List.mem_map.1 hx with ⟨e, -, rfl⟩
    exact Manifest.exists_artifact_of_mem_ofEntry hnames hf
  · intro hreached a ha hkind
    suffices hlisted : ∃ e ∈ g.entries, ∃ now, a.listed publicPath now ∈ Manifest.ofEntry g
        (shared g settings assets) (b.artifacts g outputs (shared g settings assets)) outputs
        publicPath e.1 by
      rcases hlisted with ⟨e, he, now, hf⟩
      exact ⟨_, List.mem_map_of_mem (List.mem_map_of_mem he), _, hf, rfl, rfl⟩
    rw [Bundler.artifacts_eq] at ha
    rcases List.mem_append.1 ha with ha | ha
    · rcases List.mem_flatMap.1 ha with ⟨c, hc, ha⟩
      exact exists_listed_of_mem_filesOf hreached hc ha hkind publicPath
    · rcases exists_listed_of_mem_assets hreached hnodup hof ha publicPath with ⟨e, he, hf⟩
      exact ⟨e, he, false, hf⟩

/-- What the modules of the two pages become when the one that is loaded on demand is copied. -/
def copiedOutputs : ModuleOutputs := pageOutputs.insert ⟨"lazy.js"⟩ (.asset "lazy.bin" "x".toUTF8)

theorem split_manifest_exact_twoPages :
    plainBundler.profile.split? = some { minSize := 0, groups := [] } ∧ copiedOutputs.ids.Nodup ∧
      copiedOutputs.ids ⊆ twoPages.ids ∧
      (∀ id, twoPages.contains id = true →
        ∃ e ∈ twoPages.entries, id ∈ twoPages.fullClosure e.2) ∧
      (Manifest.ofBuild ["main", "help"] twoPages (twoPages.split unmerged copiedOutputs.assetIds)
        (plainBundler.artifacts twoPages copiedOutputs
          (twoPages.split unmerged copiedOutputs.assetIds))
        copiedOutputs "/static/").Exact plainBundler twoPages copiedOutputs
        (twoPages.split unmerged copiedOutputs.assetIds) "/static/" := by
  have hnodup : copiedOutputs.ids.Nodup := by decide
  have hof : copiedOutputs.ids ⊆ twoPages.ids := by decide
  have hreached : ∀ id ∈ twoPages.ids, ∃ e ∈ twoPages.entries, id ∈ twoPages.fullClosure e.2 := by
    decide
  refine ⟨rfl, hnodup, hof, fun id hid => hreached id (ModuleGraph.contains_iff.1 hid), ?_⟩
  exact split_manifest_exact plainBundler rfl twoPages copiedOutputs.assetIds hnodup hof "/static/"

end Split

end Bindery
