import Bindery.Proofs.Bundle.Build
import Bindery.Proofs.Bundle.ChunkText
import Bindery.Proofs.Bundle.EntryLoading
import Bindery.Proofs.Bundle.Transform
import Bindery.Proofs.Graph.Outcome

/-!
# What the scripts of a page ask for

A page loads the chunks of an entry. What its scripts ask the loader for is defined by one of them,
unless it became a copy or a style sheet that is kept out of scripts. This is said of what the entry
reaches: a chunk can hold more, when it gathers a named group or was merged, and what only that
refers to need not be loaded.

* `Split.carry_loaded` : the chunks that a page loads hold the code that its entry reaches.
* `Page.Asked`, `Page.Complete` : what a page asks for when it runs, and that it has it.
* `GraphBuilder.complete_of_errors_eq_nil` : every page of a build without failures is complete.
* `Bundler.complete_of_compile` : and so is every page of a bundle without warnings.
-/

namespace Bindery

open ChunkText

namespace ChunkSet

/-- The chunks that a page of an entry loads: in production those that are listed for the entry, in
development its own one. -/
def loaded (chunks : ChunkSet) (p : Profile) (g : ModuleGraph) (e : String) : List Chunk :=
  match p.split? with
  | some _ => (chunks.forEntry g e).filterMap fun x => chunks[x.1]?
  | none => (chunks.entryChunk? e).toList

theorem mem_of_mem_loaded {chunks : ChunkSet} {p : Profile} {g : ModuleGraph} {e : String}
    {c : Chunk} (h : c ∈ chunks.loaded p g e) : c ∈ chunks := by
  unfold loaded at h
  split at h
  · rcases List.mem_filterMap.1 h with ⟨x, -, hx⟩
    exact List.mem_of_getElem? hx
  · exact List.mem_of_find?_eq_some (Option.mem_toList.1 h)

end ChunkSet

/-! ## The chunks of a page -/

namespace Split

variable {g : ModuleGraph} {settings : SplitSettings} {assets : List ModuleId} {e : String}
  {roots : List ModuleId} {id : ModuleId}

/-- Chunks that start an entry, and no other one, and hold the code that it reaches, and nothing
that the graph does not have. -/
structure Carry (g : ModuleGraph) (assets : List ModuleId) (e : String) (roots : List ModuleId)
    (loaded : List Chunk) : Prop where
  started : ∃ c ∈ loaded, c.entry = some e
  own : ∀ c ∈ loaded, ∀ f, c.entry = some f → e = f
  reached : ∀ id ∈ g.fullClosure roots, id ∉ assets → ∃ c ∈ loaded, id ∈ c.modules
  present : ∀ c ∈ loaded, ∀ id ∈ c.modules, g.contains id = true

/-- In production the chunks that are listed for an entry hold what it reaches: the owners of that
are among them. -/
theorem carry_shared (hroots : g.entries.lookup e = some roots) :
    Carry g assets e roots (((shared g settings assets).forEntry g e).filterMap fun x =>
      (shared g settings assets)[x.1]?) := by
  have hpartition := shared_partitions g settings assets
  have hloaded : ∀ i c, (shared g settings assets)[i]? = some c →
      ((shared g settings assets).entryIndex? e = some i ∨
        ∃ id ∈ g.fullClosure roots, (shared g settings assets).owner? id = some i) →
      c ∈ ((shared g settings assets).forEntry g e).filterMap fun x =>
        (shared g settings assets)[x.1]? := by
    intro i c hc hneeded
    rcases (ChunkSet.exists_mem_forEntry_iff hroots).2 hneeded with ⟨now, hx⟩
    exact List.mem_filterMap.2 ⟨(i, now), hx, hc⟩
  constructor
  · rcases exists_entryIndex? settings assets hroots with ⟨i, hi⟩
    rcases ChunkSet.entryIndex?_spec hi with ⟨c, hc, hentry⟩
    exact ⟨c, hloaded i c hc (.inl hi), hentry⟩
  · intro c hc f hf
    rcases List.mem_filterMap.1 hc with ⟨⟨i, now⟩, hlisted, hi⟩
    exact eq_of_mem_forEntry hroots hlisted hi hf
  · intro id hid hcode
    rcases hpartition.placed id (ModuleGraph.contains_of_mem_closure hid) hcode with ⟨i, hi, -⟩
    have howner := (hpartition.owned id i).2 hi
    rcases hi with ⟨c, hc, hmem⟩
    exact ⟨c, hloaded i c hc (.inr ⟨id, hid, howner⟩), hmem⟩
  · intro c hc id hid
    rcases List.mem_filterMap.1 hc with ⟨x, -, hx⟩
    exact (hpartition.onlyCode c (List.mem_of_getElem? hx) id hid).1

/-- In development the chunk of an entry holds what it reaches. -/
theorem carry_perEntry (hroots : g.entries.lookup e = some roots) :
    Carry g assets e roots ((perEntry g assets).entryChunk? e).toList := by
  rcases List.lookup_eq_some_iff.1 hroots with ⟨before, after, hsplit, hbefore⟩
  -- the chunks before it start entries with other names
  have hchunk : ∃ c, (perEntry g assets).entryChunk? e = some c ∧ c.entry = some e ∧
      c.modules = ((g.fullClosure roots).filter fun id => !assets.contains id).mergeSort
        ModuleId.le := by
    unfold ChunkSet.entryChunk? perEntry
    rw [hsplit, List.map_append, List.find?_append, List.find?_eq_none.2, Option.none_or,
      List.map_cons, List.find?_cons_of_pos]
    · exact ⟨_, rfl, rfl, rfl⟩
    · simp
    · intro c hc
      rcases List.mem_map.1 hc with ⟨entry, hentry, rfl⟩
      have hne := hbefore entry hentry
      simp only [bne_iff_ne] at hne
      simpa using Ne.symm hne
  rcases hchunk with ⟨c, hc, hentry, hmodules⟩
  have hmem : ∀ id, id ∈ c.modules ↔ id ∈ g.fullClosure roots ∧ id ∉ assets := by
    intro id
    simp [hmodules, List.mem_mergeSort]
  rw [hc]
  constructor
  · exact ⟨c, List.mem_singleton_self c, hentry⟩
  · intro c' hc' f hf
    obtain rfl := List.mem_singleton.1 hc'
    exact Option.some.inj (hentry.symm.trans hf)
  · exact fun id hid hcode => ⟨c, List.mem_singleton_self c, (hmem id).2 ⟨hid, hcode⟩⟩
  · intro c' hc' id hid
    obtain rfl := List.mem_singleton.1 hc'
    exact ModuleGraph.contains_of_mem_closure ((hmem id).1 hid).1

/-- The chunks that a page loads start its entry and hold the code that the entry reaches. -/
theorem carry_loaded (p : Profile) (assets : List ModuleId)
    (hroots : g.entries.lookup e = some roots) :
    Carry g assets e roots ((g.split p assets).loaded p g e) := by
  unfold ModuleGraph.split ChunkSet.loaded
  cases p.split? with
  | some settings => exact carry_shared hroots
  | none => exact carry_perEntry hroots

end Split

/-! ## Linking -/

/-- The modules that are listed as copies are left out of all scripts. -/
theorem leftOut_of_mem_assetIds {s : Settings} {outputs : ModuleOutputs} {id : ModuleId}
    (hnodup : outputs.ids.Nodup) (h : id ∈ outputs.assetIds) : LeftOut s outputs id := by
  rcases ModuleOutputs.exists_asset_of_mem_assetIds hnodup h with ⟨file, bytes, hasset⟩
  exact leftOut_of_asset hasset

namespace Page

variable (s : Settings) (g : ModuleGraph) (outputs : ModuleOutputs) (loaded : List Chunk)

/-- A page has a module: a chunk that it loads defines it, or no script does since the module became
a copy or a style sheet of its own. -/
def Provided (id : ModuleId) : Prop :=
  (∃ c ∈ loaded, Defines s outputs c id) ∨ LeftOut s outputs id

/-- What a page asks the loader for: the roots that its scripts run, and what the dependency maps of
the definitions name that it has asked for. -/
inductive Asked : ModuleId → Prop
  | root {c : Chunk} {id : ModuleId} (hc : c ∈ loaded) (hid : id ∈ ChunkText.roots g c) : Asked id
  | named {c : Chunk} {id t : ModuleId} (hid : Asked id) (hc : c ∈ loaded)
      (hdefines : Defines s outputs c id) (ht : Names g id t) : Asked t

/-- A page is complete. Only a root whose name is kept for what could not be found can be absent. -/
structure Complete (e : String) : Prop where
  /-- The page loads a chunk that runs the roots of its entry. -/
  started : ∃ c ∈ loaded, c.entry = some e
  /-- What the scripts of the page run. -/
  roots : ∀ c ∈ loaded, ∀ id ∈ ChunkText.roots g c, id.isMissing = false →
    Provided s outputs loaded id
  /-- What the definitions of modules name that the entry reaches. -/
  named : ∀ c ∈ loaded, ∀ id ∈ g.fullClosure ((g.entries.lookup e).getD []),
    Defines s outputs c id → ∀ t, Names g id t → Provided s outputs loaded t
  /-- What the page asks for when it runs. -/
  asked : ∀ id, Asked s g outputs loaded id → id.isMissing = false →
    Provided s outputs loaded id

/-- A definition in a page names a target that no script of the page defines. -/
def Dangling (id t : ModuleId) : Prop :=
  (∃ c ∈ loaded, Defines s outputs c id) ∧ Names g id t ∧ ∀ c ∈ loaded, ¬Defines s outputs c t

end Page

namespace ModuleGraph

variable {s : Settings} {g : ModuleGraph} {outputs : ModuleOutputs} {assets : List ModuleId}
  {e : String} {roots : List ModuleId} {loaded : List Chunk} {id t : ModuleId}

/-- The scripts of a page run roots of its entry. -/
theorem mem_roots_of_loaded {c : Chunk} (h : Split.Carry g assets e roots loaded)
    (hroots : g.entries.lookup e = some roots) (hc : c ∈ loaded)
    (hid : id ∈ ChunkText.roots g c) : id ∈ roots := by
  cases hentry : c.entry with
  | none => simp [ChunkText.roots, hentry] at hid
  | some f =>
    obtain rfl := h.own c hc f hentry
    simpa [ChunkText.roots, hentry, hroots] using hid

/-- What the definition of a module names that an entry reaches, the entry reaches as well. -/
theorem Linked.mem_fullClosure_of_names (h : g.Linked) (hid : id ∈ g.fullClosure roots)
    (ht : Names g id t) : t ∈ g.fullClosure roots := by
  rcases mem_targets_of_names ht with ⟨m, hm, htarget⟩
  have hpresent := h.targets m (List.mem_of_find?_eq_some hm) t htarget
  rw [← Module.map_fst_dependencies] at htarget
  rcases List.mem_map.1 htarget with ⟨d, hd, rfl⟩
  refine mem_closure_of_leads hid ⟨d, ?_, rfl, rfl⟩
  simp only [dependencies, hm]
  exact List.mem_filter.2 ⟨hd, hpresent⟩

/-- A page has what its entry reaches. -/
theorem provided_of_mem_fullClosure (houtputs : outputs.ids = g.ids)
    (hassets : ∀ id ∈ assets, LeftOut s outputs id) (h : Split.Carry g assets e roots loaded)
    (hid : id ∈ g.fullClosure roots) : Page.Provided s outputs loaded id := by
  by_cases hasset : id ∈ assets
  · exact .inr (hassets id hasset)
  · rcases h.reached id hid hasset with ⟨c, hc, hmem⟩
    have hin : id ∈ outputs.ids := houtputs ▸ contains_iff.1 (contains_of_mem_closure hid)
    exact (defines_or_leftOut hmem (ModuleOutputs.isSome_get? hin)).imp_left fun hd => ⟨c, hc, hd⟩

/-- What a page asks for is reached by its entry, as far as there is such a module. -/
theorem Linked.mem_fullClosure_of_asked (hlinked : g.Linked)
    (h : Split.Carry g assets e roots loaded) (hroots : g.entries.lookup e = some roots)
    (hid : Page.Asked s g outputs loaded id) (hpresent : g.contains id = true) :
    id ∈ g.fullClosure roots := by
  -- what defines a name is in a chunk, so it is in the graph and the claim holds of it before
  induction hid with
  | root hc hroot =>
    exact mem_closure_iff.2 ⟨_, mem_roots_of_loaded h hroots hc hroot, hpresent, .refl⟩
  | named _ hc hdefines ht ih =>
    have hin := h.present _ hc _ (defines_iff.1 hdefines).1
    exact hlinked.mem_fullClosure_of_names (ih hin) ht

/-- The page of an entry of a graph that holds all that it refers to is complete. -/
theorem Linked.complete (hlinked : g.Linked) (p : Profile) (houtputs : outputs.ids = g.ids)
    (hassets : ∀ id ∈ assets, LeftOut s outputs id) (hroots : g.entries.lookup e = some roots) :
    Page.Complete s g outputs ((g.split p assets).loaded p g e) e := by
  have hcarry := Split.carry_loaded p assets hroots
  generalize (g.split p assets).loaded p g e = loaded at *
  have hroot : ∀ id ∈ roots, id.isMissing = false → id ∈ g.fullClosure roots := by
    intro id hid hmissing
    have hpresent := hlinked.roots _ (mem_of_lookup hroots) id hid hmissing
    exact mem_closure_iff.2 ⟨id, hid, hpresent, .refl⟩
  have hprovided : ∀ id ∈ g.fullClosure roots, Page.Provided s outputs loaded id :=
    fun id hid => provided_of_mem_fullClosure houtputs hassets hcarry hid
  constructor
  · exact hcarry.started
  · intro c hc id hid hmissing
    have hin := mem_roots_of_loaded hcarry hroots hc hid
    exact hprovided id (hroot id hin hmissing)
  · intro c _ id hid _ t ht
    rw [hroots, Option.getD_some] at hid
    exact hprovided t (hlinked.mem_fullClosure_of_names hid ht)
  · intro id hid hmissing
    refine hprovided id ?_
    cases hid with
    | root hc hin => exact hroot id (mem_roots_of_loaded hcarry hroots hc hin) hmissing
    | named hid hc hdefines ht =>
      have hin := hcarry.present _ hc _ (defines_iff.1 hdefines).1
      have hreached := hlinked.mem_fullClosure_of_asked hcarry hroots hid hin
      exact hlinked.mem_fullClosure_of_names hreached ht

end ModuleGraph

/-! ## Builds without failures -/

/-- Every page of a bundle that is compiled without warnings is complete. -/
theorem Bundler.complete_of_compile {b : Bundler} {p : Project} {previous : Option Bundle}
    {touched : List ModuleId} {made : Bundle} (h : b.compile p previous touched = .ok made)
    (hwarnings : made.warnings = []) {e : String} (he : e ∈ b.profile.entries.map (·.1)) :
    Page.Complete (Settings.ofProfile b.profile) made.graph made.outputs
      (made.chunks.loaded b.profile made.graph e) e := by
  rcases compile_spec h with ⟨reuse, hmade⟩
  rcases GraphBuilder.exists_lookup_of_declared b.graphBuilder p .inOrder
    (previous.map (·.graph)) touched he with ⟨roots, hroots⟩
  have hok : (b.graphBuilder.rebuild p b.profile.entries (previous.map (·.graph)) touched).errors
      = [] := List.map_eq_nil_iff.1 (hmade.warnings ▸ hwarnings)
  have hlinked := GraphBuilder.linked_of_errors_eq_nil hok
  have hids := Transformer.ids_runIncremental hmade.transformed
  have hord := ModuleOutputs.inOrder_of_ids_eq hids
  rcases minifyStage_spec hord hmade.outputs with ⟨hsame, hkept⟩
  rw [hmade.chunks, hmade.graph]
  refine hlinked.complete b.profile (hsame.trans hids) ?_ hroots
  intro id hid
  -- a copy is no script, so making scripts smaller leaves it as it is
  have hnodup := hord.imp ModuleId.ne_of_lt
  rcases ModuleOutputs.exists_asset_of_mem_assetIds hnodup hid with ⟨file, bytes, hasset⟩
  exact leftOut_of_asset (hkept id _ hasset (by simp))

namespace GraphBuilder

/-- Every page of a build without failures is complete: below every root and in whatever order
modules were read, for every profile, all outputs of the modules and every declared entry. -/
theorem complete_of_errors_eq_nil (b : GraphBuilder) (project : Project) (schedule : Schedule)
    (entries : EntryMap String) (previous : Option ModuleGraph) (touched : List ModuleId)
    {g : ModuleGraph} (hg : (b.rebuildWith schedule project entries previous touched).graph = g)
    (hok : (b.rebuildWith schedule project entries previous touched).errors = []) (p : Profile)
    (outputs : ModuleOutputs) (houtputs : outputs.ids = g.ids) (e : String)
    (he : e ∈ entries.map (·.1)) :
    Page.Complete (Settings.ofProfile p) g outputs ((g.split p outputs.assetIds).loaded p g e)
      e := by
  subst hg
  rcases exists_lookup_of_declared b project schedule previous touched he with ⟨roots, hroots⟩
  refine (linked_of_errors_eq_nil hok).complete p houtputs ?_ hroots
  exact fun id hid => leftOut_of_mem_assetIds (houtputs ▸ ModuleGraph.nodup_ids _) hid

end GraphBuilder

/-! ## A site whose pages ask for more -/

namespace Site

/-- Two pages below `/app`, and a file with a name that is kept. -/
def project : Project :=
  { files := ⟨[
      (["app", "home.js"], .file "import './home.css'".toUTF8),
      (["app", "home.css"], .file "".toUTF8),
      (["app", "help.js"], .file "import './faq'".toUTF8),
      (["app", "faq.js"], .file "import './icon.svg'".toUTF8),
      (["app", "icon.svg"], .file "".toUTF8),
      (["app", "missing:a.js"], .file "".toUTF8)]⟩
    base := "/app" }

def entries : EntryMap String :=
  [("home", ["home"]), ("help", ["help"]), ("odd", ["./missing:a.js"])]

/-- A named group takes the roots of both pages. -/
def settings : SplitSettings :=
  { minSize := 0, groups := [{ name := "pages", test := .ofLiteral "^h" }] }

/-- Production with style sheets of their own. -/
def profile : Profile :=
  .ofLayer
    { rules := some [{ test := .ofLiteral "\\.css$", chain := [{ engine := "css-extract" }] }]
      split := some { minSize := some settings.minSize, groups := some settings.groups } }
    .production {}

def builder : GraphBuilder :=
  { lookup := { root := "/app", extensions := [".js"] }, stubUnresolved := false }

def built : GraphBuild := builder.rebuildWith .inOrder project entries none []

def batch : TransformBatch :=
  (Transformer.ofProfile profile Engine.builtins).run built.graph

/-- The chunks that the page of an entry loads. -/
def page (e : String) : List Chunk :=
  (built.graph.split profile batch.outputs.assetIds).loaded profile built.graph e

/-- What building the site comes to. -/
theorem built_spec :
    (built.errors = [] ∧ batch.errors.isEmpty = true ∧ batch.outputs.ids = built.graph.ids) ∧
    built.graph.entries =
      [("home", [⟨"home.js"⟩]), ("help", [⟨"help.js"⟩]), ("odd", [⟨"missing:a.js"⟩])] ∧
    Split.finalSlots built.graph settings batch.outputs.assetIds =
      [(.entry 0, []), (.entry 1, [⟨"faq.js"⟩]), (.entry 2, []),
        (.group 0, [⟨"help.js"⟩, ⟨"home.css"⟩, ⟨"home.js"⟩])] ∧
    ((dependencyMap built.graph ⟨"home.js"⟩).get? "./home.css").bind Json.str? = some "home.css" ∧
    ((dependencyMap built.graph ⟨"help.js"⟩).get? "./faq").bind Json.str? = some "faq.js" ∧
    ((dependencyMap built.graph ⟨"faq.js"⟩).get? "./icon.svg").bind Json.str? = some "icon.svg" ∧
    (LeftOut (.ofProfile profile) batch.outputs ⟨"home.css"⟩ ∧
      LeftOut (.ofProfile profile) batch.outputs ⟨"icon.svg"⟩ ∧
      ¬LeftOut (.ofProfile profile) batch.outputs ⟨"home.js"⟩ ∧
      ¬LeftOut (.ofProfile profile) batch.outputs ⟨"help.js"⟩ ∧
      ¬LeftOut (.ofProfile profile) batch.outputs ⟨"faq.js"⟩) ∧
    (⟨"home.js"⟩ : ModuleId) ∈ built.graph.fullClosure [⟨"home.js"⟩] ∧
    (⟨"faq.js"⟩ : ModuleId) ∈ built.graph.fullClosure [⟨"help.js"⟩] ∧
    built.graph.contains ⟨"missing:a.js"⟩ = false := by
  decide +kernel

/-- The page of the first entry finds all that it asks for. -/
theorem complete_home : built.errors = [] ∧ batch.outputs.ids = built.graph.ids ∧
    "home" ∈ entries.map (·.1) ∧
    Page.Complete (.ofProfile profile) built.graph batch.outputs (page "home") "home" := by
  rcases built_spec.1 with ⟨hok, -, hids⟩
  have he : "home" ∈ entries.map (·.1) := by decide
  refine ⟨hok, hids, he, ?_⟩
  exact GraphBuilder.complete_of_errors_eq_nil builder project .inOrder entries none [] rfl hok
    profile batch.outputs hids "home" he

/-- Definitions can name what no script of their page defines: style sheets that are kept out,
copies, and what only modules refer to that the entry does not reach. A root with a name that is
kept is never read. -/
theorem dangling_site : built.errors = [] ∧ batch.errors = [] ∧
    Page.Dangling (.ofProfile profile) built.graph batch.outputs (page "home")
      ⟨"home.js"⟩ ⟨"home.css"⟩ ∧
    Page.Dangling (.ofProfile profile) built.graph batch.outputs (page "help")
      ⟨"faq.js"⟩ ⟨"icon.svg"⟩ ∧
    Page.Dangling (.ofProfile profile) built.graph batch.outputs (page "home")
      ⟨"help.js"⟩ ⟨"faq.js"⟩ ∧
    (∃ c ∈ page "odd", ⟨"missing:a.js"⟩ ∈ ChunkText.roots built.graph c) ∧
    ∀ c ∈ page "odd", ¬Defines (.ofProfile profile) batch.outputs c ⟨"missing:a.js"⟩ := by
  obtain ⟨⟨hok, htransformed, hids⟩, hentries, hslots, hhome, hhelp, hfaq,
    ⟨hcss, hicon, hhome', hhelp', hfaq'⟩, hreached, hreached', habsent⟩ := built_spec
  have hcarry : ∀ e roots, built.graph.entries.lookup e = some roots →
      Split.Carry built.graph batch.outputs.assetIds e roots (page e) :=
    fun e roots hroots => Split.carry_loaded profile batch.outputs.assetIds hroots
  have hcarryHome := hcarry "home" [⟨"home.js"⟩] (by rw [hentries]; rfl)
  have hcarryHelp := hcarry "help" [⟨"help.js"⟩] (by rw [hentries]; rfl)
  have hcarryOdd := hcarry "odd" [⟨"missing:a.js"⟩] (by rw [hentries]; rfl)
  have hassets : ∀ id ∈ batch.outputs.assetIds, LeftOut (.ofProfile profile) batch.outputs id :=
    fun id hid => leftOut_of_mem_assetIds (hids ▸ ModuleGraph.nodup_ids _) hid
  -- a chunk of a page is made from one of the four slots
  have hslot : ∀ {e c}, c ∈ page e →
      c.modules = [] ∨ c.modules.Perm [⟨"faq.js"⟩] ∧ c.entry = some "help" ∨
        c.modules.Perm [⟨"help.js"⟩, ⟨"home.css"⟩, ⟨"home.js"⟩] := by
    intro e c hc
    have hsplit : built.graph.split profile batch.outputs.assetIds =
        Split.shared built.graph settings batch.outputs.assetIds := rfl
    have hchunk := hsplit ▸ ChunkSet.mem_of_mem_loaded hc
    rcases Split.exists_slot_of_mem hchunk with ⟨s, hs, taken, rfl⟩
    rw [hslots] at hs
    simp only [List.mem_cons, List.not_mem_nil, or_false] at hs
    rcases hs with rfl | rfl | rfl | rfl
    · exact .inl (List.mergeSort_perm _ _).eq_nil
    · refine .inr (.inl ⟨List.mergeSort_perm _ _, ?_⟩)
      simp [Split.Plan.chunk, Split.Plan.baseName, Split.plan, hentries]
    · exact .inl (List.mergeSort_perm _ _).eq_nil
    · exact .inr (.inr (List.mergeSort_perm _ _))
  have hdefinesHome : ∃ c ∈ page "home", Defines (.ofProfile profile) batch.outputs c ⟨"home.js"⟩ :=
    (ModuleGraph.provided_of_mem_fullClosure hids hassets hcarryHome hreached).resolve_right hhome'
  have hdefinesFaq : ∃ c ∈ page "help", Defines (.ofProfile profile) batch.outputs c ⟨"faq.js"⟩ :=
    (ModuleGraph.provided_of_mem_fullClosure hids hassets hcarryHelp hreached').resolve_right hfaq'
  refine ⟨hok, List.isEmpty_iff.1 htransformed, ?_, ?_, ?_, ?_, ?_⟩
  · exact ⟨hdefinesHome, ⟨"./home.css", hhome⟩, fun c _ => not_defines_of_leftOut hcss⟩
  · exact ⟨hdefinesFaq, ⟨"./icon.svg", hfaq⟩, fun c _ => not_defines_of_leftOut hicon⟩
  · refine ⟨?_, ⟨"./faq", hhelp⟩, ?_⟩
    · -- the chunk that defines one root holds the other root as well
      rcases hdefinesHome with ⟨c, hc, hdefines⟩
      refine ⟨c, hc, ?_⟩
      have hhelpIn : (⟨"help.js"⟩ : ModuleId) ∈ c.modules := by
        have hin := (defines_iff.1 hdefines).1
        rcases hslot hc with hnil | ⟨hperm, -⟩ | hperm
        · simp [hnil] at hin
        · simp [hperm.mem_iff] at hin
        · simp [hperm.mem_iff]
      have hpresent := ModuleGraph.contains_iff.1 (hcarryHome.present c hc _ hhelpIn)
      exact (defines_or_leftOut hhelpIn (ModuleOutputs.isSome_get? (hids ▸ hpresent))).resolve_right
        hhelp'
    · -- only the chunk of the other page holds the target
      intro c hc hdefines
      have hin := (defines_iff.1 hdefines).1
      rcases hslot hc with hnil | ⟨-, hentry⟩ | hperm
      · simp [hnil] at hin
      · exact absurd (hcarryHome.own c hc "help" hentry) (by decide)
      · simp [hperm.mem_iff] at hin
  · rcases hcarryOdd.started with ⟨c, hc, hentry⟩
    refine ⟨c, hc, ?_⟩
    rw [ChunkText.roots, hentry, hentries]
    exact List.mem_singleton_self _
  · intro c hc hdefines
    have hpresent := hcarryOdd.present c hc _ (defines_iff.1 hdefines).1
    rw [habsent] at hpresent
    exact absurd hpresent Bool.false_ne_true

end Site

end Bindery
