import Bindery.Proofs.Bundle.Distinct
import Bindery.Proofs.Bundle.Manifest

/-!
# Copies

A copy holds the source of the module that it was made of, byte for byte. Its name comes of a
template, and modules of different directories may well be copied under the same one. There is one
file for each name then: the copy of the first of these modules in the order of ids. The manifest
lists that file for all of them, which is right just when they have the same source.

* `Transformer.eq_source_of_transformModule` : what a copy holds.
* `ModuleOutputs.IsFirstCopy` : the module whose copy is written.
* `Artifact.filter_assets` : the one copy of a name.
* `CopiesKept` : what becomes of the copies of a build.
* `Bundler.copies_kept` : so it is for every graph, whatever the order in which modules are
  finished.
-/

namespace Bindery

/-! ## What a copy holds -/

namespace Transformer

variable {t : Transformer} {m : Module} {id : ModuleId} {i : Nat} {kind : ContentKind}
  {code file : String} {bytes : ByteArray}

/-- Engines make code. -/
theorem isAsset_of_runChain {chain : List EngineStep} {o : ModuleOutput}
    (h : t.runChain id i chain kind code = .ok o) : o.isAsset = false := by
  induction chain generalizing kind code with
  | nil =>
    obtain rfl := Except.ok.inj h
    rfl
  | cons s r ih =>
    unfold runChain at h
    split at h
    · cases h
    · split at h
      · exact ih h
      · cases h
      · cases h

/-- A copy holds the source of its module. -/
theorem eq_source_of_transformModule (h : t.transformModule m = .ok (.asset file bytes)) :
    bytes = m.source := by
  have hcopy : ∀ template, copyOf m template = .asset file bytes → bytes = m.source := by
    intro template hmade
    exact (ModuleOutput.asset.inj hmade).2.symm
  unfold transformModule at h
  by_cases hstub : m.isStub = true
  · rw [if_pos hstub] at h
    cases h
  · rw [if_neg hstub] at h
    generalize Treatment.classify m.id.text t.rules t.assets = treatment at h
    dsimp only at h
    cases hfault : treatment.engineFault? m.id t.registry with
    | some e =>
      rw [hfault] at h
      cases h
    | none =>
      rw [hfault] at h
      cases treatment with
      | asset i filename => exact hcopy filename (Except.ok.inj h)
      | passThrough =>
        by_cases hkind : m.kind = .resource
        · simp only [hkind, if_true] at h
          exact hcopy _ (Except.ok.inj h)
        · simp only [hkind, if_false] at h
          cases h
      | transform i chain => cases isAsset_of_runChain h

/-- The copies of a graph hold the sources of their modules. -/
theorem exists_source_of_mem_outputsOf {g : ModuleGraph}
    (h : (id, .asset file bytes) ∈ t.outputsOf g) :
    ∃ m, g.module? id = some m ∧ bytes = m.source := by
  obtain ⟨m, hm, hmade⟩ := List.mem_filterMap.1 h
  obtain ⟨hid, hdone⟩ := made?_eq_some.1 hmade
  exact ⟨m, ModuleGraph.module?_eq_some_iff.2 ⟨hm, hid⟩, eq_source_of_transformModule hdone⟩

end Transformer

/-! ## Modules that are copied under one name -/

/-- The name of a copy and what it holds. -/
def ModuleOutput.copy? : ModuleOutput → Option (String × ByteArray)
  | .asset file bytes => some (file, bytes)
  | .code _ _ => none

theorem ModuleOutput.copy?_eq_some_iff {o : ModuleOutput} {file : String} {bytes : ByteArray} :
    o.copy? = some (file, bytes) ↔ o = .asset file bytes := by
  cases o with
  | asset file' bytes' => simp [copy?]
  | code kind text => simp [copy?]

namespace ModuleOutputs

variable {outputs : ModuleOutputs} {file : String} {id : ModuleId} {bytes : ByteArray}

/-- A module is copied under a name. -/
def IsCopy (outputs : ModuleOutputs) (file : String) (id : ModuleId) : Prop :=
  ∃ bytes, (id, .asset file bytes) ∈ outputs

/-- Of the modules that are copied under a name the first one in the order of ids. -/
def IsFirstCopy (outputs : ModuleOutputs) (file : String) (id : ModuleId) : Prop :=
  outputs.IsCopy file id ∧ ∀ x < id, ¬outputs.IsCopy file x

/-- Among the modules that are copied under a name one is the first. -/
theorem exists_isFirstCopy (hord : outputs.InOrder) (h : outputs.IsCopy file id) :
    ∃ x, outputs.IsFirstCopy file x := by
  classical
  obtain ⟨bytes, ho⟩ := h
  have hfound : (outputs.find? fun x => outputs.IsCopy file x.1).isSome = true := by
    rw [List.find?_isSome]
    exact ⟨_, ho, decide_eq_true ⟨bytes, ho⟩⟩
  obtain ⟨first, hfirst⟩ := Option.isSome_iff_exists.1 hfound
  obtain ⟨hcopy, before, after, hsplit, hbefore⟩ := List.find?_eq_some_iff_append.1 hfirst
  refine ⟨first.1, of_decide_eq_true hcopy, ?_⟩
  rintro x hlt ⟨bytes', ho'⟩
  rw [InOrder, ids, hsplit, List.map_append, List.map_cons, List.pairwise_append,
    List.pairwise_cons] at hord
  have hmem : (x, .asset file bytes') ∈ before ++ first :: after := hsplit ▸ ho'
  rcases List.mem_append.1 hmem with hmem | hmem
  · -- what comes before the first is not copied under the name
    have hnot := hbefore _ hmem
    simp only [Bool.not_eq_true', decide_eq_false_iff_not] at hnot
    exact hnot ⟨bytes', ho'⟩
  · rcases List.mem_cons.1 hmem with heq | hmem
    · rw [← heq] at hlt
      exact ModuleId.lt_irrefl _ hlt
    · exact ModuleId.lt_irrefl _ (ModuleId.lt_trans hlt (hord.2.1.1 x (List.mem_map_of_mem hmem)))

end ModuleOutputs

/-! ## Files -/

namespace Artifact

variable {outputs : ModuleOutputs} {file : String} {id : ModuleId} {bytes : ByteArray}

/-- The file of a copy. -/
def ofCopy (file : String) (bytes : ByteArray) : Artifact :=
  { file, kind := .asset, chunk := none, fingerprint := none, bytes }

/-- The copy of the first module of a name is written. -/
theorem ofCopy_mem_assets (hord : outputs.InOrder) (ho : (id, .asset file bytes) ∈ outputs)
    (hfirst : ∀ x < id, ¬outputs.IsCopy file x) : ofCopy file bytes ∈ assets outputs := by
  obtain ⟨before, after, rfl⟩ := List.append_of_mem ho
  rw [ModuleOutputs.InOrder, ModuleOutputs.ids, List.map_append, List.pairwise_append] at hord
  have hfree : ¬((assets before).any (·.file = file)) = true := by
    intro hany
    obtain ⟨a, ha, hname⟩ := List.any_eq_true.1 hany
    obtain ⟨-, -, x, bytes', hx⟩ := of_mem_assets ha
    rw [of_decide_eq_true hname] at hx
    have hlt : x < id := hord.2.2 x (List.mem_map_of_mem hx) id List.mem_cons_self
    exact hfirst x hlt ⟨bytes', List.mem_append_left _ hx⟩
  have hadded : ofCopy file bytes ∈ addAsset (assets before) (.asset file bytes) := by
    rw [addAsset, if_neg hfree]
    exact List.mem_append_right _ (List.mem_singleton_self _)
  rw [assets, List.map_append, List.map_cons, List.foldl_append, List.foldl_cons]
  exact subset_foldl_addAsset _ _ hadded

/-- There is one copy of a name, that of the first module. -/
theorem filter_assets (hord : outputs.InOrder) (ho : (id, .asset file bytes) ∈ outputs)
    (hfirst : ∀ x < id, ¬outputs.IsCopy file x) :
    (assets outputs).filter (·.file = file) = [ofCopy file bytes] := by
  have hmem : ofCopy file bytes ∈ assets outputs := ofCopy_mem_assets hord ho hfirst
  have hnodup : (assets outputs).Nodup := (nodup_file_assets outputs).of_map _
  apply List.perm_singleton.1
  rw [List.perm_ext_iff_of_nodup (hnodup.filter _) (List.nodup_singleton _)]
  intro a
  rw [List.mem_filter, List.mem_singleton, decide_eq_true_eq]
  constructor
  · rintro ⟨ha, hfile⟩
    exact List.inj_on_of_nodup_map (nodup_file_assets outputs) ha hmem hfile
  · rintro rfl
    exact ⟨hmem, rfl⟩

end Artifact

/-! ## Files that the manifest lists -/

namespace Manifest

variable {g : ModuleGraph} {chunks : ChunkSet} {artifacts : List Artifact} {outputs : ModuleOutputs}
  {publicPath entry : String} {f : ManifestFile}

/-- Of the files of an entry only its copies are listed as such. -/
theorem mem_ofEntry_copy_iff :
    f ∈ ofEntry g chunks artifacts outputs publicPath entry ∧ f.kind = .asset ↔
      ∃ file ∈ copiesOf g outputs ((g.entries.lookup entry).getD []),
        f = { path := publicPath ++ file, isEntryPoint := false, kind := .asset } := by
  have hcode : ∀ chunk, ∀ a ∈ filesOf artifacts chunk, a.kind ≠ .asset := by
    intro chunk a ha hkind
    rcases List.mem_append.1 ha with ha | ha
    · have hstyle := of_decide_eq_true (List.mem_filter.1 ha).2
      cases hstyle.symm.trans hkind
    · have hscript := of_decide_eq_true (List.mem_filter.1 ha).2
      cases hscript.symm.trans hkind
  unfold ofEntry
  rw [List.mem_append]
  constructor
  · rintro ⟨hf | hf, hkind⟩
    · obtain ⟨i, -, hf⟩ := List.mem_flatMap.1 hf
      obtain ⟨a, ha, rfl⟩ := List.mem_map.1 hf
      exact absurd hkind (hcode _ a ha)
    · obtain ⟨file, hfile, rfl⟩ := List.mem_map.1 hf
      exact ⟨file, hfile, rfl⟩
  · rintro ⟨file, hfile, rfl⟩
    exact ⟨.inr (List.mem_map_of_mem hfile), rfl⟩

end Manifest

/-! ## Copies of a build -/

/-- What becomes of the copies of a build. -/
structure CopiesKept (b : Bundler) (g : ModuleGraph) (outputs : ModuleOutputs) (chunks : ChunkSet) :
    Prop where
  /-- A copy holds the source of its module. -/
  source : ∀ id file bytes, (id, .asset file bytes) ∈ outputs →
    ∃ m, g.module? id = some m ∧ bytes = m.source
  /-- There is one file for each name of copies, and it holds the source of the first module. -/
  first : ∀ file id, outputs.IsCopy file id →
    ∃ x m, outputs.IsFirstCopy file x ∧ g.module? x = some m ∧
      (b.artifacts g outputs chunks).filter (fun a => a.kind = .asset && a.file = file) =
        [.ofCopy file m.source]
  /-- There is no other copy. -/
  known : ∀ a ∈ b.artifacts g outputs chunks, a.kind = .asset → ∃ id, outputs.IsCopy a.file id
  /-- The manifest lists the copies of what an entry reaches. -/
  listed : ∀ publicPath entry f,
    (f ∈ Manifest.ofEntry g chunks (b.artifacts g outputs chunks) outputs publicPath entry ∧
      f.kind = .asset) ↔ ∃ id ∈ g.fullClosure ((g.entries.lookup entry).getD []), ∃ file,
        outputs.IsCopy file id ∧
          f = { path := publicPath ++ file, isEntryPoint := false, kind := .asset }
  /-- All modules that are copied under a name find their sources there exactly when these are the
  same. -/
  right : ∀ file,
    (∀ id m, outputs.IsCopy file id → g.module? id = some m →
      ∃ a ∈ b.artifacts g outputs chunks, a.kind = .asset ∧ a.file = file ∧ a.bytes = m.source) ↔
    ∀ id m id' m', outputs.IsCopy file id → g.module? id = some m → outputs.IsCopy file id' →
      g.module? id' = some m' → m.source = m'.source

namespace Bundler

variable {b : Bundler} {g : ModuleGraph} {outputs made : ModuleOutputs} {chunks : ChunkSet}
  {file : String} {id : ModuleId}

/-- The files of chunks are no copies. -/
theorem mem_assets_iff {a : Artifact} :
    a ∈ Artifact.assets outputs ↔ a ∈ b.artifacts g outputs chunks ∧ a.kind = .asset := by
  rw [artifacts_eq, List.mem_append]
  constructor
  · intro ha
    exact ⟨.inr ha, (Artifact.of_mem_assets ha).1⟩
  · rintro ⟨ha | ha, hkind⟩
    · obtain ⟨c, -, ha⟩ := List.mem_flatMap.1 ha
      exact absurd hkind (Artifact.kind_ne_asset_of_mem_ofChunk ha)
    · exact ha

/-- Copies among all files are those of the outputs. -/
theorem filter_artifacts_asset (file : String) :
    (b.artifacts g outputs chunks).filter (fun a => a.kind = .asset && a.file = file) =
      (Artifact.assets outputs).filter (·.file = file) := by
  have hcode : (chunks.flatMap (b.filesOf g outputs)).filter
      (fun a => a.kind = .asset && a.file = file) = [] := by
    rw [List.filter_eq_nil_iff]
    intro a ha
    obtain ⟨c, -, ha⟩ := List.mem_flatMap.1 ha
    simp [Artifact.kind_ne_asset_of_mem_ofChunk ha]
  rw [artifacts_eq, List.filter_append, hcode, List.nil_append]
  apply List.filter_congr
  intro a ha
  simp [(Artifact.of_mem_assets ha).1]

section Sources

variable (hord : outputs.InOrder)
  (hsource : ∀ id file bytes, (id, .asset file bytes) ∈ outputs →
    ∃ m, g.module? id = some m ∧ bytes = m.source)

include hord hsource

/-- Of the modules that are copied under a name the source of the first one is written. -/
theorem exists_first_source (hcopy : outputs.IsCopy file id) :
    ∃ x m, outputs.IsFirstCopy file x ∧ g.module? x = some m ∧
      (b.artifacts g outputs chunks).filter (fun a => a.kind = .asset && a.file = file) =
        [.ofCopy file m.source] := by
  obtain ⟨x, ⟨bytes, ho⟩, hbefore⟩ := ModuleOutputs.exists_isFirstCopy hord hcopy
  obtain ⟨m, hm, rfl⟩ := hsource x file bytes ho
  refine ⟨x, m, ⟨⟨m.source, ho⟩, hbefore⟩, hm, ?_⟩
  rw [filter_artifacts_asset, Artifact.filter_assets hord ho hbefore]

/-- All modules that are copied under a name find their sources exactly when these are the same. -/
theorem sources_found_iff (file : String) :
    (∀ id m, outputs.IsCopy file id → g.module? id = some m →
      ∃ a ∈ b.artifacts g outputs chunks, a.kind = .asset ∧ a.file = file ∧ a.bytes = m.source) ↔
    ∀ id m id' m', outputs.IsCopy file id → g.module? id = some m → outputs.IsCopy file id' →
      g.module? id' = some m' → m.source = m'.source := by
  have hmem : ∀ a, a ∈ (b.artifacts g outputs chunks).filter
      (fun a => a.kind = .asset && a.file = file) ↔
        a ∈ b.artifacts g outputs chunks ∧ a.kind = .asset ∧ a.file = file := by
    intro a
    simp only [List.mem_filter, Bool.and_eq_true, decide_eq_true_eq]
  constructor
  · intro hfound id m id' m' hcopy hm hcopy' hm'
    -- both find their sources in the one copy of the name
    obtain ⟨x, first, -, -, honly⟩ := exists_first_source hord hsource hcopy
    have hbytes : ∀ a ∈ b.artifacts g outputs chunks, a.kind = .asset → a.file = file →
        a.bytes = first.source := by
      intro a ha hkind hfile
      have hone := (hmem a).2 ⟨ha, hkind, hfile⟩
      rw [honly, List.mem_singleton] at hone
      rw [hone, Artifact.ofCopy]
    obtain ⟨a, ha, hkind, hfile, hsame⟩ := hfound id m hcopy hm
    obtain ⟨a', ha', hkind', hfile', hsame'⟩ := hfound id' m' hcopy' hm'
    calc m.source = a.bytes := hsame.symm
      _ = first.source := hbytes a ha hkind hfile
      _ = a'.bytes := (hbytes a' ha' hkind' hfile').symm
      _ = m'.source := hsame'
  · intro hsame id m hcopy hm
    obtain ⟨x, first, hx, hxm, honly⟩ := exists_first_source hord hsource hcopy
    have hone : Artifact.ofCopy file first.source ∈ (b.artifacts g outputs chunks).filter
        (fun a => a.kind = .asset && a.file = file) := by
      rw [honly]
      exact List.mem_singleton_self _
    refine ⟨_, ((hmem _).1 hone).1, rfl, rfl, ?_⟩
    exact hsame x first id m hx.1 hxm hcopy hm

/-- Outputs in order whose copies hold the sources of the graph are written as they should be. -/
theorem copiesKept_of_source : CopiesKept b g outputs chunks := by
  constructor
  case source => exact hsource
  case first =>
    intro file id hcopy
    exact exists_first_source hord hsource hcopy
  case known =>
    intro a ha hkind
    obtain ⟨-, -, id, bytes, ho⟩ := Artifact.of_mem_assets (mem_assets_iff.2 ⟨ha, hkind⟩)
    exact ⟨id, bytes, ho⟩
  case listed =>
    intro publicPath entry f
    rw [Manifest.mem_ofEntry_copy_iff]
    constructor
    · rintro ⟨file, hfile, rfl⟩
      obtain ⟨id, hid, bytes, hget⟩ := Manifest.mem_copiesOf.1 hfile
      exact ⟨id, hid, file, ⟨bytes, ModuleOutputs.mem_of_get? hget⟩, rfl⟩
    · rintro ⟨id, hid, file, ⟨bytes, ho⟩, rfl⟩
      have hget := ModuleOutputs.get?_of_mem (hord.imp ModuleId.ne_of_lt) ho
      exact ⟨file, Manifest.mem_copiesOf.2 ⟨id, hid, bytes, hget⟩, rfl⟩
  case right =>
    intro file
    exact sources_found_iff hord hsource file

end Sources

/-- Copies are made and kept as they should be: for every graph, in whatever order its modules are
finished and whatever is validly taken over, and for all chunks. -/
theorem copies_kept (b : Bundler) (g : ModuleGraph) {finish : List Module → List Module}
    (hfinish : ∀ work, (finish work).Perm work) {reuse : Option (ModuleOutputs × List ModuleId)}
    (hvalid : (Transformer.ofProfile b.profile b.registry).Valid g reuse)
    (hmade : b.minifyStage
      ((Transformer.ofProfile b.profile b.registry).runWith finish g reuse).outputs = .ok made)
    (chunks : ChunkSet) : CopiesKept b g made chunks := by
  rw [(Transformer.runWith_spec hfinish hvalid).1] at hmade
  have hord := Transformer.inOrder_outputsOf (Transformer.ofProfile b.profile b.registry) g
  have hordMade : made.InOrder := by
    rw [ModuleOutputs.InOrder, (minifyStage_spec hord hmade).1]
    exact hord
  apply copiesKept_of_source hordMade
  intro id file bytes ho
  -- a minimizer makes no copies
  have hget := ModuleOutputs.get?_of_mem (hordMade.imp ModuleId.ne_of_lt) ho
  rcases get?_of_minifyStage hmade hget with hbefore | ⟨name, engine, code, hsmall⟩
  · exact Transformer.exists_source_of_mem_outputsOf (ModuleOutputs.mem_of_get? hbefore)
  · exact absurd rfl (ne_asset_of_minifyScript hsmall file bytes)

/-! ### Two icons -/

/-- Two pages in development. -/
def pictured : Bundler :=
  { profile :=
      .ofLayer
        { root := some "/app", outputPath := some "out"
          entries := some [("day", ["day.js"]), ("night", ["night.js"])] }
        .development {}
    registry := Engine.builtins }

/-- The pages have icons of their own. Only the directories of the icons differ. -/
def twoIcons : ModuleGraph :=
  .ofModules [("day", [⟨"day.js"⟩]), ("night", [⟨"night.js"⟩])]
    [Split.letter "day.js" [⟨"./day/icon.png", .static, some ⟨"day/icon.png"⟩⟩],
      Split.letter "night.js" [⟨"./night/icon.png", .static, some ⟨"night/icon.png"⟩⟩],
      .ofSource ⟨"day/icon.png"⟩ "/app/day/icon.png" "sun".toUTF8,
      .ofSource ⟨"night/icon.png"⟩ "/app/night/icon.png" "moon".toUTF8]

/-- What the modules become, finished the other way round. -/
def iconOutputs : ModuleOutputs :=
  let t := Transformer.ofProfile pictured.profile pictured.registry
  (t.runWith List.reverse twoIcons none).outputs

/-- The chunks of the pages. -/
def iconChunks : ChunkSet := twoIcons.split pictured.profile iconOutputs.assetIds

/-- Of the two icons the first one is written. -/
theorem copies_kept_twoIcons :
    (∀ work : List Module, work.reverse.Perm work) ∧
      (Transformer.ofProfile pictured.profile pictured.registry).Valid twoIcons none ∧
      pictured.minifyStage iconOutputs = .ok iconOutputs ∧
      (Artifact.assets iconOutputs).map (·.bytes) = ["sun".toUTF8] ∧
      CopiesKept pictured twoIcons iconOutputs iconChunks := by
  have hvalid := Transformer.valid_none
    (Transformer.ofProfile pictured.profile pictured.registry) twoIcons
  refine ⟨List.reverse_perm, hvalid, rfl, by decide +kernel, ?_⟩
  exact copies_kept pictured twoIcons List.reverse_perm hvalid rfl iconChunks

/-- What the second icon shows is in no file of its name. -/
theorem lost_twoIcons :
    pictured.profile.validate.isOk = true ∧
      pictured.minifyStage iconOutputs = .ok iconOutputs ∧
      ∃ m ∈ twoIcons.modules, ∃ file, (m.id, .asset file m.source) ∈ iconOutputs ∧
        ∀ a ∈ pictured.artifacts twoIcons iconOutputs iconChunks,
          a.file = file → a.bytes ≠ m.source := by
  have hlost : ∃ x ∈ iconOutputs, ∃ copy ∈ x.2.copy?, ∃ m ∈ twoIcons.modules,
      x.1 = m.id ∧ copy.2 = m.source ∧
        ∀ a ∈ pictured.artifacts twoIcons iconOutputs iconChunks,
          a.file = copy.1 → a.bytes ≠ m.source := by
    decide +kernel
  obtain ⟨⟨_, o⟩, ho, ⟨file, _⟩, hcopy, m, hm, rfl, rfl, hnone⟩ := hlost
  obtain rfl := ModuleOutput.copy?_eq_some_iff.1 hcopy
  exact ⟨by decide, rfl, m, hm, file, ho, hnone⟩

end Bundler

end Bindery
