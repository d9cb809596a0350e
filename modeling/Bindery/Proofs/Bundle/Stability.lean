import Bindery.Proofs.Bundle.ChunkFile
import Bindery.Proofs.Bundle.ChunkText
import Bindery.Proofs.Bundle.Minify
import Bindery.Proofs.Bundle.Partition
import Bindery.Proofs.Graph.Outline

/-!
# What an edit leaves alone

How a graph is split depends on which modules there are, where their imports lead and, as far as
small chunks are merged, on sizes. What a chunk becomes depends on its own modules and on the roots of
its entry. So when one module is edited and its imports keep their targets, the chunks stay the same,
and those without the module come to the same files: same names, same bytes.

* `Split.plan_congr`, `Split.finalSlots_congr` : graphs that differ only in what a module holds are
  split in the same way.
* `ChunkText.ofChunk_congr` : the text of a chunk reads nothing but its modules and its entry.
* `Split.split_stable` : chunks without the edited module keep their files.
-/

namespace Bindery

variable {g g' : ModuleGraph} {x : ModuleId}

/-! ## Splitting -/

namespace ModuleGraph

/-- Sizes matter to a split only as far as small chunks are merged. -/
def SameSizes (minSize : Nat) (g g' : ModuleGraph) : Prop :=
  minSize = 0 ∨ g.totalSize = g'.totalSize

theorem SameBut.sourceSize_of_ne (h : g.SameBut x g') {id : ModuleId} (hid : id ≠ x) :
    g.sourceSize id = g'.sourceSize id := by
  rw [sourceSize, sourceSize, h.module?_of_ne hid]

/-- Modules without the one in which the graphs differ are as large in both. -/
theorem SameBut.totalSize_of_notMem (h : g.SameBut x g') {ids : List ModuleId} (hx : x ∉ ids) :
    g.totalSize ids = g'.totalSize ids := by
  have hsizes : ids.map g.sourceSize = ids.map g'.sourceSize := by
    refine List.map_congr_left fun id hid => h.sourceSize_of_ne ?_
    rintro rfl
    exact hx hid
  rw [totalSize_eq_sum, totalSize_eq_sum, hsizes]

/-- When the module keeps its size, all sizes are the same. -/
theorem SameBut.totalSize_eq (h : g.SameBut x g') (hx : g.sourceSize x = g'.sourceSize x) :
    g.totalSize = g'.totalSize := by
  have hsize : g.sourceSize = g'.sourceSize := by
    funext id
    by_cases hid : id = x
    · rw [hid, hx]
    · exact h.sourceSize_of_ne hid
  funext ids
  rw [totalSize_eq_sum, totalSize_eq_sum, hsize]

end ModuleGraph

namespace SlotMap

variable {minSize : Nat}

theorem nextMerge?_congr (h : g.SameLinks g') (hsize : g.SameSizes minSize g')
    (slots : SlotMap) : slots.nextMerge? g minSize = slots.nextMerge? g' minSize := by
  have htarget : slots.joinTarget? g = slots.joinTarget? g' := by
    funext source
    simp only [joinTarget?, h.dependents]
  have hsmall : slots.tooSmall g minSize = slots.tooSmall g' minSize := by
    rcases hsize with rfl | hsize
    · simp [tooSmall]
    · simp only [tooSmall, hsize]
  simp only [nextMerge?, htarget, hsmall]

theorem mergeSmall_congr (h : g.SameLinks g') (hsize : g.SameSizes minSize g')
    (slots : SlotMap) : slots.mergeSmall g minSize = slots.mergeSmall g' minSize := by
  suffices hall : ∀ fuel slots, mergeAll g minSize fuel slots = mergeAll g' minSize fuel slots from
    hall _ _
  intro fuel
  induction fuel with
  | zero => exact fun _ => rfl
  | succ n ih =>
    intro slots
    simp only [mergeAll, nextMerge?_congr h hsize, ih]

end SlotMap

namespace Split

theorem plan_congr (h : g.SameLinks g') (groups : List ChunkGroup) (assets : List ModuleId) :
    plan g groups assets = plan g' groups assets := by
  have hboundary : boundaryAt g = boundaryAt g' := by
    funext free taken root
    simp only [boundaryAt, h.staticClosure]
  have hadd : addBoundary g = addBoundary g' := by
    funext free taken found root
    simp only [addBoundary, hboundary]
  have hstraggler : addStraggler g = addStraggler g' := by
    funext free taken found root
    simp only [addStraggler, hadd]
  have hboundaries : boundaries g = boundaries g' := by
    funext free taken
    simp only [boundaries, hadd, hstraggler, h.dynamicTargets, h.ids]
  simp only [plan, h.entries, h.staticClosure, h.fullClosure, hboundaries]

theorem finalSlots_congr (h : g.SameLinks g') {settings : SplitSettings}
    (hsize : g.SameSizes settings.minSize g') (assets : List ModuleId) :
    finalSlots g settings assets = finalSlots g' settings assets := by
  have hcode : code g assets = code g' assets := by
    rw [code, code, h.ids]
  rw [finalSlots, finalSlots, plan_congr h, hcode, SlotMap.mergeSmall_congr h hsize]

end Split

/-- Chunks that are the same but for their size, and that too unless they hold a module. -/
structure Chunk.SameBut (x : ModuleId) (c c' : Chunk) : Prop where
  layout : { c with size := c'.size } = c'
  eq_of_notMem : x ∉ c.modules → c = c'

theorem Chunk.SameBut.name_eq {c c' : Chunk} (h : c.SameBut x c') : c.name = c'.name := by
  rw [← h.layout]

namespace Split

/-- Chunks of the same modules are the same but for what the edited module adds to their size. -/
theorem sameBut_sized (h : g.SameBut x g') (c : Chunk) :
    Chunk.SameBut x { c with size := g.totalSize c.modules }
      { c with size := g'.totalSize c.modules } where
  layout := rfl
  eq_of_notMem := by
    intro hx
    rw [h.totalSize_of_notMem hx]

theorem chunks_sameBut (h : g.SameBut x g') (p : Plan) (slots : SlotMap) :
    List.Forall₂ (Chunk.SameBut x) (p.chunks g slots) (p.chunks g' slots) := by
  -- a chunk is named after the names before it, which are the same for both graphs
  suffices hfold : ∀ {done done' : ChunkSet}, List.Forall₂ (Chunk.SameBut x) done done' →
      List.Forall₂ (Chunk.SameBut x)
        (slots.foldl (fun done s => done ++ [p.chunk g (done.map (·.name)) s.1 s.2]) done)
        (slots.foldl (fun done s => done ++ [p.chunk g' (done.map (·.name)) s.1 s.2]) done') from
    hfold .nil
  induction slots with
  | nil => exact fun hdone => hdone
  | cons s r ih =>
    intro done done' hdone
    have hnames : done.map (·.name) = done'.map (·.name) := by
      rw [← List.forall₂_eq_eq_eq, List.forall₂_map_left_iff, List.forall₂_map_right_iff]
      exact hdone.imp fun c c' hsame => hsame.name_eq
    refine ih (List.rel_append hdone (.cons ?_ .nil))
    rw [hnames]
    exact sameBut_sized h (p.chunk g (done'.map (·.name)) s.1 s.2)

/-- Splitting graphs that differ only in one module gives the same chunks. -/
theorem split_sameBut (h : g.SameBut x g') {p : Profile}
    (hsize : ∀ s, p.split? = some s → s.minSize = 0 ∨ g.sourceSize x = g'.sourceSize x)
    (assets : List ModuleId) :
    List.Forall₂ (Chunk.SameBut x) (g.split p assets) (g'.split p assets) := by
  unfold ModuleGraph.split
  cases hsplit : p.split? with
  | some settings =>
    have hsizes : g.SameSizes settings.minSize g' := (hsize settings hsplit).imp_right h.totalSize_eq
    show List.Forall₂ _ (shared g settings assets) (shared g' settings assets)
    rw [shared_eq, shared_eq, plan_congr h.sameLinks, finalSlots_congr h.sameLinks hsizes]
    exact chunks_sameBut h _ _
  | none =>
    show List.Forall₂ _ (perEntry g assets) (perEntry g' assets)
    rw [perEntry, perEntry, h.entries, h.sameLinks.fullClosure, List.forall₂_map_left_iff,
      List.forall₂_map_right_iff, List.forall₂_same]
    rintro ⟨name, roots⟩ _
    exact sameBut_sized h
      { name := name, kind := .initial, entry := some name, group := none, modules := _, size := 0 }

end Split

/-! ## Texts -/

namespace ChunkText

variable {s : Settings} {outputs outputs' : ModuleOutputs} {c : Chunk}

theorem parts_congr {ids : List ModuleId}
    (h : ∀ id ∈ ids, outputs.get? id = outputs'.get? id) :
    parts s outputs ids = parts s outputs' ids := by
  refine List.filterMap_congr fun id hid => ?_
  rw [h id hid]

theorem definition_congr {id : ModuleId} (h : g.module? id = g'.module? id) (body : String) :
    definition s g id body = definition s g' id body := by
  rw [definition, definition, dependencyMap, dependencyMap, h]

/-- The text of a chunk reads nothing but its modules and the roots of its entry. -/
theorem ofChunk_congr (hentries : g.entries = g'.entries)
    (hmodules : ∀ id ∈ c.modules, g.module? id = g'.module? id)
    (houtputs : ∀ id ∈ c.modules, outputs.get? id = outputs'.get? id) :
    ofChunk s g outputs c = ofChunk s g' outputs' c := by
  have hparts : parts s outputs c.modules = parts s outputs' c.modules := parts_congr houtputs
  have hroots : roots g c = roots g' c := by rw [roots, roots, hentries]
  have hmember : ∀ b ∈ bodies (parts s outputs' c.modules), b.1 ∈ c.modules :=
    fun b hb => (mem_parts.1 (mem_bodies.1 hb)).1
  have hdefinitions : (bodies (parts s outputs' c.modules)).map (fun b => definition s g b.1 b.2) =
      (bodies (parts s outputs' c.modules)).map fun b => definition s g' b.1 b.2 :=
    List.map_congr_left fun b hb => definition_congr (hmodules _ (hmember b hb)) b.2
  have hsources : (bodies (parts s outputs' c.modules)).filterMap
        (fun b => (g.module? b.1).map fun m => (b.1, m.text)) =
      (bodies (parts s outputs' c.modules)).filterMap
        fun b => (g'.module? b.1).map fun m => (b.1, m.text) :=
    List.filterMap_congr fun b hb => by rw [hmodules _ (hmember b hb)]
  simp only [ofChunk, hparts, hroots, hdefinitions, hsources]

end ChunkText

/-! ## Files -/

/-- Outputs that differ only in one module, which is code in both. -/
structure ModuleOutputs.SameBut (x : ModuleId) (outputs outputs' : ModuleOutputs) : Prop where
  others : ∀ id, id ≠ x → outputs.get? id = outputs'.get? id
  code : ∃ kind text, outputs.get? x = some (.code kind text)
  code' : ∃ kind text, outputs'.get? x = some (.code kind text)

theorem ModuleOutputs.SameBut.assetIds_eq {outputs outputs' : ModuleOutputs}
    (h : outputs.SameBut x outputs') (hord : outputs.InOrder) (hord' : outputs'.InOrder) :
    outputs.assetIds = outputs'.assetIds := by
  refine ModuleId.eq_of_mem_iff (pairwise_assetIds hord) (pairwise_assetIds hord') fun id => ?_
  rw [mem_assetIds (hord.imp ModuleId.ne_of_lt), mem_assetIds (hord'.imp ModuleId.ne_of_lt)]
  by_cases hid : id = x
  · obtain ⟨kind, text, hcode⟩ := h.code
    obtain ⟨kind', text', hcode'⟩ := h.code'
    simp [hid, hcode, hcode']
  · rw [h.others id hid]

/-- Setting the output of a module that was code before to other code. -/
theorem ModuleOutputs.sameBut_insert {outputs : ModuleOutputs} {kind kind' : ContentKind}
    {text text' : String} (h : outputs.get? x = some (.code kind text)) :
    outputs.SameBut x (outputs.insert x (.code kind' text')) where
  others := by
    intro id hid
    rw [get?_insert, if_neg hid]
  code := ⟨kind, text, h⟩
  code' := ⟨kind', text', by rw [get?_insert, if_pos rfl]⟩

/-- A chunk before and after a module was edited. Where it does not hold the module it comes to the
same files: the same names, the same bytes. -/
structure Bundler.KeepsFiles (b : Bundler) (x : ModuleId) (g g' : ModuleGraph)
    (outputs outputs' : ModuleOutputs) (c c' : Chunk) : Prop extends Chunk.SameBut x c c' where
  files : x ∉ c.modules → b.filesOf g outputs c = b.filesOf g' outputs' c'

namespace Split

/-- Editing one module, so that its imports keep their targets and it stays code, leaves the chunks as
they are, and every chunk without it comes to the same files: for every profile, all graphs and
outputs. Where small chunks are merged the module also has to keep its size. -/
theorem split_stable (b : Bundler) {outputs outputs' : ModuleOutputs} (hord : outputs.InOrder)
    (hord' : outputs'.InOrder) (hgraph : g.SameBut x g') (houtputs : outputs.SameBut x outputs')
    (hsize : ∀ s, b.profile.split? = some s →
      s.minSize = 0 ∨ g.sourceSize x = g'.sourceSize x) :
    List.Forall₂ (b.KeepsFiles x g g' outputs outputs')
      (g.split b.profile outputs.assetIds) (g'.split b.profile outputs'.assetIds) := by
  rw [← houtputs.assetIds_eq hord hord']
  refine (split_sameBut hgraph hsize outputs.assetIds).imp fun c c' hsame => ⟨hsame, fun hx => ?_⟩
  obtain rfl := hsame.eq_of_notMem hx
  have hne : ∀ id ∈ c.modules, id ≠ x := by
    rintro id hid rfl
    exact hx hid
  have htext : b.textOf g outputs c = b.textOf g' outputs' c :=
    ChunkText.ofChunk_congr hgraph.entries (fun id hid => hgraph.module?_of_ne (hne id hid))
      fun id hid => houtputs.others id (hne id hid)
  rw [Bundler.filesOf, Bundler.filesOf, htext]

/-! ## Two pages that share a module -/

/-- What they become when the module that they share says something else. -/
def editedOutputs : ModuleOutputs := pageOutputs.insert ⟨"util.js"⟩ (.code .script "yy")

/-- The two pages with the module that they share as it is then. -/
def editedPages : ModuleGraph := twoPages.edit ⟨"util.js"⟩ "yy".toUTF8

theorem split_stable_twoPages :
    pageOutputs.InOrder ∧ editedOutputs.InOrder ∧ twoPages.SameBut ⟨"util.js"⟩ editedPages ∧
      pageOutputs.SameBut ⟨"util.js"⟩ editedOutputs ∧
      (∀ s, plainBundler.profile.split? = some s → s.minSize = 0 ∨
        twoPages.sourceSize ⟨"util.js"⟩ = editedPages.sourceSize ⟨"util.js"⟩) ∧
      List.Forall₂
        (plainBundler.KeepsFiles ⟨"util.js"⟩ twoPages editedPages pageOutputs editedOutputs)
        (twoPages.split unmerged pageOutputs.assetIds)
        (editedPages.split unmerged editedOutputs.assetIds) := by
  have hord : pageOutputs.InOrder := by
    unfold ModuleOutputs.InOrder
    decide
  have hord' : editedOutputs.InOrder := ModuleOutputs.inOrder_insert hord
  have hgraph : twoPages.SameBut ⟨"util.js"⟩ editedPages := ModuleGraph.sameBut_edit _ _ _
  have houtputs : pageOutputs.SameBut ⟨"util.js"⟩ editedOutputs :=
    ModuleOutputs.sameBut_insert rfl
  have hsize : ∀ s, plainBundler.profile.split? = some s → s.minSize = 0 ∨
      twoPages.sourceSize ⟨"util.js"⟩ = editedPages.sourceSize ⟨"util.js"⟩ := by
    rintro s hs
    obtain rfl := Option.some.inj hs
    exact .inl rfl
  exact ⟨hord, hord', hgraph, houtputs, hsize,
    split_stable plainBundler hord hord' hgraph houtputs hsize⟩

end Split

end Bindery
