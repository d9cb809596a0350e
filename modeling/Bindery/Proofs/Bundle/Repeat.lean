import Bindery.Proofs.Bundle.Delivery
import Bindery.Proofs.Bundle.Minify
import Bindery.Proofs.Bundle.Overwrite
import Bindery.Proofs.Bundle.Single
import Bindery.Proofs.Graph.Rebuild

/-!
# Rebuilding when nothing has changed

A rebuild for which nothing was touched reads no file again that it read before, takes over all
outputs and writes the same files to the same places. What it takes over has been through the whole
build before, though, and the minifying stage goes over it once more.

* `Bundler.write_again` : what was written can be written again.
* `Bundler.compile_again` : when a rebuild makes the same.
-/

namespace Bindery

namespace Bundler

open Path Location

variable {b : Bundler} {p : Project} {made made' : Bundle} {snapshot : Snapshot} {d d' : Disk}

/-! ## Writing the same again -/

/-- The places of the files of a build and of its manifest. -/
def filePlaces (b : Bundler) (base : String) (snapshot : Snapshot) : List Location :=
  b.places base snapshot ++ (b.manifestTarget?.map (Location.ofPath base)).toList

/-- No directory has come to be where a file of a build waits for its place. -/
def Unobstructed (b : Bundler) (d : Disk) (snapshot : Snapshot) : Prop :=
  ∀ loc ∈ b.filePlaces d.base snapshot, d.tree.Vacant (Output.beside loc)

instance : Decidable (b.Unobstructed d snapshot) :=
  inferInstanceAs (Decidable (∀ loc ∈ b.filePlaces d.base snapshot, d.tree.Vacant (Output.beside loc)))

theorem mem_filePlaces_of_target {path base : String} (h : b.manifestTarget? = some path) :
    Location.ofPath base path ∈ b.filePlaces base snapshot := by
  simp [filePlaces, h]

/-- What is known of the manifest once it is written: it is there, and nothing else has changed but
directories that were made. -/
theorem way_of_writeManifest (habsolute : isAbsolute d.base = true)
    (h : b.writeManifest made d = (.ok (), d')) :
    d.Keeps d' ∧ ∀ path, b.manifestTarget? = some path →
      Output.Way d' path (Location.ofPath d.base path) ∧
        d'.tree.isFile (Location.ofPath d.base path) = true := by
  unfold writeManifest at h
  rw [manifestTarget?_eq b made]
  cases hmanifest : b.manifest? made with
  | none =>
    rw [hmanifest] at h
    cases h
    exact ⟨.refl d, by simp⟩
  | some m =>
    rw [hmanifest] at h
    obtain ⟨hkeeps, hway, hfile⟩ := Output.way_of_writeDurably habsolute h
    refine ⟨hkeeps, ?_⟩
    intro path hpath
    obtain rfl : m.1 = path := Option.some.inj hpath
    exact ⟨hway, hfile⟩

/-- After the manifest is written nothing is in the way of writing the files of a batch again. -/
theorem replaceable_of_writeManifest {top : Location} {locs : List Location}
    (habsolute : isAbsolute d.base = true) (hwritten : Output.Written d top locs)
    (h : b.writeManifest made d = (.ok (), d'))
    (hvacant : ∀ loc ∈ locs, d'.tree.Vacant (Output.beside loc))
    (hmanifest : ∀ path, b.manifestTarget? = some path →
      d'.tree.Vacant (Output.beside (Location.ofPath d.base path))) :
    ∀ loc ∈ locs, Output.Replaceable d' (Location.toPath loc) loc := by
  obtain ⟨hkeeps, hway⟩ := way_of_writeManifest habsolute h
  have hgrows := confined_writeManifest habsolute b made d rfl
  rw [h] at hgrows
  intro loc hloc
  refine ⟨(hwritten.ways loc hloc).of_keeps hkeeps, ?_, hvacant loc hloc⟩
  have hfile : d'.tree.isFile loc = true → d'.tree.isDir loc = false := by
    intro hfile
    simp [FileTree.isDir, hfile]
  rcases hwritten.there loc hloc with hthere | ⟨other, hother, rfl⟩
  · by_cases hat : ∃ path, b.manifestTarget? = some path ∧ Output.AtPath d.base path loc
    · obtain ⟨path, htarget, rfl | rfl⟩ := hat
      · exact hfile (hway path htarget).2
      · -- the manifest waited there
        have hwaiting := Disk.locate_eq (hkeeps.isAbsolute habsolute) (hway path htarget).1.waiting
        rw [hkeeps.base] at hwaiting
        exact hwaiting ▸ (hmanifest path htarget).isDir_eq_false
    · refine hfile ?_
      unfold FileTree.isFile
      rw [hgrows.tree.read?_eq hat]
      exact hthere
  · exact (hvacant other hother).isDir_eq_false

theorem writeManifest_again (hreliable : d.Reliable) (habsolute : isAbsolute d.base = true)
    (hready : ∀ path, b.manifestTarget? = some path →
      Output.Replaceable d path (Location.ofPath d.base path)) (made : Bundle) :
    ∃ d', b.writeManifest made d = (.ok (), d') := by
  unfold writeManifest
  rw [manifestTarget?_eq b made] at hready
  cases hmanifest : b.manifest? made with
  | none => exact ⟨d, rfl⟩
  | some m =>
    rw [hmanifest] at hready
    exact Output.writeDurably_again (hready m.1 rfl) hreliable habsolute _

/-- What was written can be written again, unless a directory has come to be where one of the files
waits. -/
theorem write_again {isRebuild : Bool} (hreliable : d'.Reliable) (habsolute : isAbsolute d.base = true)
    (h : b.write made isRebuild d = (.ok snapshot, d')) (hfree : b.Unobstructed d' snapshot)
    (hartifacts : made'.artifacts = made.artifacts) (isRebuild' : Bool) :
    ∃ again d'', b.write made' isRebuild' d' = (.ok again, d'') := by
  obtain ⟨hmade, -, d₁, hfiles, hmanifest⟩ := write_ok h
  obtain ⟨top, htop, hdirectory⟩ := Output.absolute_eq habsolute b.profile.outputDirectory
  obtain ⟨hkeeps, locs, hplaced, hwritten⟩ :=
    Output.written_of_writeArtifacts habsolute htop hdirectory hfiles
  have habsolute₁ := hkeeps.isAbsolute habsolute
  obtain ⟨hkeeps₁, hway⟩ := way_of_writeManifest habsolute₁ hmanifest
  have habsolute' := hkeeps₁.isAbsolute habsolute₁
  have hbase := hkeeps.trans hkeeps₁
  have hplaces : b.places d'.base snapshot = locs := by
    rw [places, hmade, hbase.base]
    exact hplaced.places_eq hdirectory
  have hvacant : ∀ loc ∈ locs, d'.tree.Vacant (Output.beside loc) :=
    fun loc hloc => hfree loc (List.mem_append_left _ (hplaces ▸ hloc))
  have hmanifestVacant : ∀ path, b.manifestTarget? = some path →
      d'.tree.Vacant (Output.beside (Location.ofPath d₁.base path)) :=
    fun path hpath => hkeeps₁.base ▸ hfree _ (mem_filePlaces_of_target hpath)
  -- the files are written again
  have hdirectory' : Output.absolute d'.base b.profile.outputDirectory = Location.toPath top :=
    hbase.base ▸ hdirectory
  obtain ⟨d₂, hfiles', hsame⟩ := Output.writeArtifacts_again hreliable habsolute' htop hdirectory'
    hplaced (Disk.isDir_of_keeps hkeeps₁ hwritten.top)
    (replaceable_of_writeManifest habsolute₁ hwritten hmanifest hvacant hmanifestVacant)
    hwritten.placed
  -- and so is the manifest
  have hready : ∀ path, b.manifestTarget? = some path →
      Output.Replaceable d₂ path (Location.ofPath d₂.base path) := by
    intro path hpath
    obtain ⟨hplace, hfile⟩ := hway path hpath
    have hreplaceable : Output.Replaceable d' path (Location.ofPath d₁.base path) :=
      ⟨hplace, by simp [FileTree.isDir, hfile], hmanifestVacant path hpath⟩
    rw [hsame.base, hkeeps₁.base]
    exact hreplaceable.of_sameDirs hsame
  obtain ⟨d'', hmanifest'⟩ := writeManifest_again (hsame.reliable hreliable)
    (hsame.isAbsolute habsolute') hready made'
  rw [← hartifacts] at hfiles'
  obtain ⟨again, hagain⟩ := write_eq_ok hfiles' hmanifest' isRebuild'
  exact ⟨again, d'', hagain⟩

/-! ## Making the same again -/

/-- All outputs of a bundle are taken over by a rebuild that comes to the same graph. -/
theorem batchOf_again (h : b.compile p none [] = .ok made) :
    (b.batchOf made.graph (some made)).outputs = made.outputs ∧
      (b.batchOf made.graph (some made)).errors = [] ∧
      made.chunks = made.graph.split b.profile made.outputs.assetIds := by
  obtain ⟨hmade, -⟩ := compile_eq_ok.1 h
  have hids := Transformer.ids_runIncremental hmade.transformed
  have hord := ModuleOutputs.inOrder_of_ids_eq hids
  obtain ⟨hidsMade, -⟩ := minifyStage_spec hord hmade.outputs
  have hall : made.outputs.ids = made.graph.ids := by
    rw [hidsMade, hmade.graph]
    exact hids
  have hbatch : b.batchOf made.graph (some made) =
      (Transformer.ofProfile b.profile b.registry).runIncremental made.graph
        (some (made.outputs, [])) := by
    unfold batchOf
    simp only [Option.map_some, Option.getD_some, ChangeSet.between_self]
  obtain ⟨houtputs, herrors⟩ :=
    Transformer.runIncremental_eq (Transformer.ofProfile b.profile b.registry) hall
  refine ⟨hbatch ▸ houtputs, hbatch ▸ herrors, ?_⟩
  rw [assetIds_minifyStage hord hmade.outputs, hmade.graph]
  exact hmade.chunks

/-- The minifying stage keeps its own results when the minimizer leaves alone what it has made. -/
theorem minifyStage_of_settles (h : b.compile p none [] = .ok made)
    (hsettles : ∀ s, b.profile.settings = .production s → b.Settles s.minimizer) :
    b.minifyStage made.outputs = .ok made.outputs := by
  obtain ⟨hmade, -⟩ := compile_eq_ok.1 h
  have hids := Transformer.ids_runIncremental hmade.transformed
  exact minifyStage_again (ModuleOutputs.inOrder_of_ids_eq hids) hsettles hmade.outputs

/-- A bundle is what an earlier one was, and nothing has changed since. -/
structure Repeats (made again : Bundle) : Prop where
  graph : again.graph = made.graph
  outputs : again.outputs = made.outputs
  chunks : again.chunks = made.chunks
  artifacts : again.artifacts = made.artifacts
  changes : again.changes = {}

/-- A rebuild for which nothing was touched makes what the build made exactly when the stand-ins say
the same again and the minifying stage keeps its own results. -/
theorem compile_again (hroot : isAbsolute b.profile.root = true)
    (h : b.compile p none [] = .ok made) :
    (∃ again, b.compile p (some made) [] = .ok again ∧ Repeats made again) ↔
      GraphBuilder.SameStandIns (b.graphOf p (some made) []).graph made.graph ∧
        b.minifyStage made.outputs = .ok made.outputs := by
  obtain ⟨houtputs, herrors, hchunks⟩ := batchOf_again h
  obtain ⟨hmade, -⟩ := compile_eq_ok.1 h
  constructor
  · rintro ⟨again, hcompile, hrepeats⟩
    obtain ⟨hagain, -⟩ := compile_eq_ok.1 hcompile
    have hgraph : (b.graphOf p (some made) []).graph = made.graph :=
      hagain.graph.symm.trans hrepeats.graph
    constructor
    · intro m hm m' hm' _ _ hid
      rw [ModuleGraph.eq_of_id_eq (hgraph ▸ hm) hm' hid]
    · have hminified := hagain.outputs
      rw [hgraph, houtputs, hrepeats.outputs] at hminified
      exact hminified
  · rintro ⟨hstandIns, hminified⟩
    -- no file has changed, so the graph is the same and no new failures are found
    have hroot' : isAbsolute b.graphBuilder.lookup.root = true := isAbsolute_clean hroot
    have hsame : GraphBuilder.SameSnapshot (b.graphOf p (some made) []) (b.graphOf p none []) := by
      unfold graphOf at *
      simp only [Option.map_some, Option.map_none] at *
      rw [hmade.graph] at hstandIns ⊢
      exact GraphBuilder.sameSnapshot_of_unchanged hroot' .inOrder .inOrder hstandIns
    have hgraph : (b.graphOf p (some made) []).graph = made.graph :=
      hsame.graph.trans hmade.graph.symm
    have hmadeFrom : MadeFrom b (b.graphOf p (some made) [])
        (b.batchOf (b.graphOf p (some made) []).graph (some made))
        { made with
          changes := {}
          warnings := (b.graphOf p (some made) []).errors.map .resolution } := by
      rw [hgraph]
      exact
        { graph := hgraph.symm
          recoverable := fun e he => hmade.recoverable e (hsame.errors.mem_iff.1 he)
          transformed := herrors
          outputs := houtputs.symm ▸ hminified
          chunks := by rw [hgraph, houtputs]; exact hchunks
          artifacts := hmade.artifacts
          warnings := rfl }
    refine ⟨_, compile_eq_ok.2 ⟨hmadeFrom, ?_⟩, ⟨rfl, rfl, rfl, rfl, rfl⟩⟩
    exact (ChangeSet.between_self made.graph).symm

/-! ## The rebuild -/

/-- A snapshot knows the manifest of what was made. -/
theorem manifest_of_write {isRebuild : Bool} (h : b.write made isRebuild d = (.ok snapshot, d')) :
    snapshot.manifest = (b.manifest? made).map (·.2) := by
  rw [write_eq] at h
  obtain ⟨written, d₁, -, hrest⟩ := Work.bind_eq_ok.1 h
  obtain ⟨u, d₂, -, hmade⟩ := Work.bind_eq_ok.1 hrest
  cases hmade
  rfl

theorem Repeats.manifest? (h : Repeats made made') : b.manifest? made' = b.manifest? made := by
  unfold Bundler.manifest?
  rw [h.graph, h.chunks, h.artifacts, h.outputs]

/-- After a build, a rebuild for which nothing was touched succeeds and makes the same again, with the
same manifest and no changes, exactly when the stand-ins come to say the same and the minifying stage
keeps what has been through it. This holds for all profiles with an absolute root, all files and all
engines, on every disk whose steps do not fail of their own, unless a directory has come to be where
a file of the build waits for its place. -/
theorem rebuild_unchanged_iff (hroot : isAbsolute b.profile.root = true) (hreliable : d.Reliable)
    (habsolute : isAbsolute d.base = true) (h : b.build p d = (.ok snapshot, d'))
    (hfree : b.Unobstructed d' snapshot) :
    (∃ again d'', b.rebuild p (some snapshot) [] d' = (.ok again, d'') ∧
        Repeats snapshot.toBundle again.toBundle ∧ again.manifest = snapshot.manifest) ↔
      GraphBuilder.SameStandIns (b.graphOf p (some snapshot.toBundle) []).graph snapshot.graph ∧
        b.minifyStage snapshot.outputs = .ok snapshot.outputs := by
  obtain ⟨d₁, hprepare, hrebuild⟩ := build_ok.1 h
  obtain ⟨made, hcompile, hwrite⟩ := rebuild_ok.1 hrebuild
  obtain ⟨hmade, -⟩ := write_ok hwrite
  have hcompile' : b.compile p none [] = .ok snapshot.toBundle := hmade ▸ hcompile
  have hmanifest := manifest_of_write hwrite
  rw [← hmade] at hwrite hmanifest
  have hprepared := confined_prepare d.base b d rfl
  have hbuilt := confined_build habsolute b p d rfl
  rw [hprepare] at hprepared
  rw [h] at hbuilt
  rw [← compile_again hroot hcompile']
  constructor
  · rintro ⟨again, d'', hagain, hrepeats, -⟩
    obtain ⟨made', hcompileAgain, hwriteAgain⟩ := rebuild_ok.1 hagain
    obtain ⟨rfl, -⟩ := write_ok hwriteAgain
    exact ⟨_, hcompileAgain, hrepeats⟩
  · rintro ⟨made', hcompileAgain, hrepeats⟩
    obtain ⟨again, d'', hwriteAgain⟩ := write_again (hbuilt.reliable hreliable)
      (hprepared.isAbsolute habsolute) hwrite hfree hrepeats.artifacts true
    obtain ⟨rfl, -⟩ := write_ok hwriteAgain
    refine ⟨again, d'', rebuild_ok.2 ⟨_, hcompileAgain, hwriteAgain⟩, hrepeats, ?_⟩
    rw [manifest_of_write hwriteAgain, hrepeats.manifest?, hmanifest]

/-! ## Minimizers with which it does and with which it does not -/

/-- A production profile with one page whose scripts are printed anew. -/
def printed : Profile :=
  .ofLayer
    { root := some "/app", entries := some [("main", ["a.js"])], outputPath := some "out"
      manifestPath := some "assets.json", minimize := some true, minimizer := some "print"
      sourceMap := some .none } .production {}

/-- Builds of that profile, for one way to print. -/
def printing (print : String → String) : Bundler :=
  { profile := printed
    registry :=
      [{ name := "print", apply := fun i => .done { code := print i.code, kind := .script } }] }

/-- The page is one script. -/
def lone : Project := ⟨⟨[(["app", "a.js"], .file "1;\n".toUTF8)]⟩, "/app"⟩

/-- A disk with nothing else on it. -/
def yard : Disk := { tree := lone.files, base := "/app" }

theorem within_yard : yard.tree.Within (· <+: ["app", "out"]) := by
  have hfind : ∀ loc n, yard.tree.find? loc = some n →
      loc = ["app"] ++ ["a.js"] ∧ n = .file "1;\n".toUTF8 := by
    intro loc n hn
    by_cases hloc : loc = ["app", "a.js"]
    · subst hloc
      exact ⟨rfl, (Option.some.inj hn).symm⟩
    · have hskip : (loc == ["app", "a.js"]) = false := by simpa using hloc
      simp [yard, lone, FileTree.find?, List.lookup_cons, hskip] at hn
  constructor
  · intro loc n hn above habove
    obtain ⟨rfl, -⟩ := hfind loc n hn
    exact (above_append_singleton.1 habove).trans (List.prefix_append ["app"] ["out"])
  · intro loc hn
    obtain ⟨-, hfile⟩ := hfind loc _ hn
    cases hfile
  · intro loc hway hne
    cases hread : yard.tree.read? loc with
    | none => rfl
    | some bytes =>
      obtain ⟨rfl, -⟩ := hfind loc _ (FileTree.read?_eq_some_iff.1 hread)
      exact absurd hway (by decide)

/-- Bundles of the page are written wherever all directories are known. -/
theorem write_printing {print : String → String}
    (hmade : made.artifacts = (printing print).artifacts made.graph made.outputs made.chunks)
    (hsingle : (printing print).isSingle made = true) (isRebuild : Bool) (hreliable : d.Reliable)
    (habsolute : isAbsolute d.base = true) (hwithin : d.tree.Within (· <+: ["app", "out"])) :
    ∃ snapshot d', (printing print).write made isRebuild d = (.ok snapshot, d') ∧ d'.Reliable ∧
      isAbsolute d'.base = true ∧ d'.tree.Within (· <+: ["app", "out"]) := by
  have hhashed : Stage.isIn printed .fingerprint = true := by decide
  have hmaps : Stage.isIn printed .sourceMaps = false := by decide
  obtain ⟨a, bytes, hartifacts, hfile⟩ := artifacts_of_isSingle hsingle hhashed hmaps hmade
  have hout : printed.outputDirectory = "/app/out" := by decide
  have htarget : (printing id).manifestTarget? = some "/app/assets.json" := by decide
  exact write_single_out hout htarget hartifacts hfile isRebuild hreliable habsolute hwithin

/-- What is compiled from nothing is built. -/
theorem build_printing {print : String → String}
    (hcompile : (printing print).compile lone none [] = .ok made)
    (hsingle : (printing print).isSingle made = true) :
    ∃ snapshot d', (printing print).build lone yard = (.ok snapshot, d') ∧ snapshot.toBundle = made ∧
      d'.Reliable ∧ isAbsolute d'.base = true ∧ d'.tree.Within (· <+: ["app", "out"]) := by
  obtain ⟨hmade, -⟩ := compile_eq_ok.1 hcompile
  obtain ⟨snapshot, d', hwrite, hdisk⟩ := write_printing hmade.artifacts hsingle false
    (fun _ => rfl) (by decide) within_yard
  have hclean : printed.output.clean = false := by decide
  have hprepare : (printing print).prepare yard = (.ok (), yard) := by
    unfold prepare
    rw [show (printing print).profile.output.clean = false from hclean]
    rfl
  have hbuild := build_ok.2 ⟨yard, hprepare, rebuild_ok.2 ⟨made, hcompile, hwrite⟩⟩
  exact ⟨snapshot, d', hbuild, (write_ok hwrite).1, hdisk⟩

/-- No directory comes to be where the page or the manifest waits. -/
theorem unobstructed_printing {print : String → String}
    (hmade : snapshot.artifacts =
      (printing print).artifacts snapshot.graph snapshot.outputs snapshot.chunks)
    (hsingle : (printing print).isSingle snapshot.toBundle = true)
    (hwithin : d.tree.Within (· <+: ["app", "out"])) : (printing print).Unobstructed d snapshot := by
  have hhashed : Stage.isIn printed .fingerprint = true := by decide
  have hmaps : Stage.isIn printed .sourceMaps = false := by decide
  obtain ⟨a, bytes, hartifacts, hfile⟩ := artifacts_of_isSingle hsingle hhashed hmaps hmade
  obtain ⟨hplaced, hshelved⟩ := placed_single plain_out storable_out hfile
  have hout : (printing print).profile.outputDirectory = toPath ["app", "out"] :=
    show printed.outputDirectory = _ by decide
  have hplaces : (printing print).places d.base snapshot = [["app", "out"] ++ [a.file]] := by
    rw [places, hartifacts]
    refine hplaced.places_eq ?_
    rw [hout]
    exact Output.absolute_toPath plain_out d.base
  have htarget : (printing print).manifestTarget? = some (toPath ["app", "assets.json"]) := by
    have hsame : (printing id).manifestTarget? = some (toPath ["app", "assets.json"]) := by
      decide
    exact hsame
  intro loc hloc
  rw [filePlaces, hplaces, htarget, Option.map_some, ofPath_toPath shelved_assets.plain] at hloc
  rcases List.mem_append.1 hloc with hloc | hloc
  · obtain rfl := List.mem_singleton.1 hloc
    exact hwithin.vacant hshelved.waiting
  · obtain rfl := List.mem_singleton.1 hloc
    exact hwithin.vacant shelved_assets.waiting

/-- Printing on one line. -/
def joined (code : String) : String := String.ofList (code.toList.filter (· ≠ '\n'))

/-- A minimizer that only drops line breaks has nothing to do the second time. -/
theorem settles_joined : (printing joined).Settles "print" := by
  intro engine hengine id code small hmade
  have hprint : (printing joined).registry.get? "print" = some
      { name := "print", apply := fun i => .done { code := joined i.code, kind := .script } } := rfl
  obtain rfl := Option.some.inj (hprint.symm.trans hengine)
  obtain rfl : joined code = small := (ModuleOutput.code.inj (Except.ok.inj hmade)).2
  have hagain : joined (joined code) = joined code := by simp [joined, List.filter_filter]
  exact congrArg (fun text => Except.ok (ModuleOutput.code .script text)) hagain

/-- A rebuild of the page on one line makes the same again. -/
theorem rebuild_unchanged_joined : ∃ snapshot d' again d'',
    (printing joined).build lone yard = (.ok snapshot, d') ∧
      (printing joined).rebuild lone (some snapshot) [] d' = (.ok again, d'') ∧
      Repeats snapshot.toBundle again.toBundle ∧ again.manifest = snapshot.manifest := by
  have hcheck : ((printing joined).compile lone none []).toOption.any (fun made =>
      (printing joined).isSingle made && made.graph.modules.all (!·.isStub)) = true := by
    decide +kernel
  obtain ⟨made, hcompile, hmade⟩ := exists_ok_of_any hcheck
  simp only [Bool.and_eq_true, List.all_eq_true, Bool.not_eq_true'] at hmade
  obtain ⟨hsingle, hread⟩ := hmade
  obtain ⟨snapshot, d', hbuild, rfl, -, -, hwithin⟩ := build_printing hcompile hsingle
  have hfree := unobstructed_printing (compile_eq_ok.1 hcompile).1.artifacts hsingle hwithin
  have hname : ∀ s, printed.settings = .production s → s.minimizer = "print" := by
    intro s hs
    cases hs
    rfl
  have hminified := minifyStage_of_settles hcompile fun s hs => hname s hs ▸ settles_joined
  have hstandIns : GraphBuilder.SameStandIns
      ((printing joined).graphOf lone (some snapshot.toBundle) []).graph snapshot.graph := by
    intro m _ m' hm' _ hstub
    rw [hread m' hm'] at hstub
    cases hstub
  obtain ⟨again, d'', hrebuild, hrepeats, hmanifest⟩ :=
    (rebuild_unchanged_iff (by decide) (fun _ => rfl) (by decide) hbuild hfree).2
      ⟨hstandIns, hminified⟩
  exact ⟨snapshot, d', again, d'', hbuild, hrebuild, hrepeats, hmanifest⟩

/-- A minimizer that adds a comment adds one more each time. -/
def commented (code : String) : String := code ++ "//"

/-- The profile is in order, and the rebuild succeeds, but the script that it writes has grown. -/
theorem not_rebuild_unchanged_commented :
    ofProfile printed (printing commented).registry = .ok (printing commented) ∧
      ∃ snapshot d' again d'', (printing commented).build lone yard = (.ok snapshot, d') ∧
        (printing commented).rebuild lone (some snapshot) [] d' = (.ok again, d'') ∧
        again.artifacts ≠ snapshot.artifacts := by
  have hcheck : ((printing commented).compile lone none []).toOption.any (fun made =>
      ((printing commented).compile lone (some made) []).toOption.any fun again =>
        (printing commented).isSingle made && (printing commented).isSingle again
          && decide (again.artifacts.map Artifact.size ≠ made.artifacts.map Artifact.size)) =
      true := by
    decide +kernel
  constructor
  · have hvalid : printed.validate.isOk = true := by decide
    unfold ofProfile
    cases hresult : printed.validate with
    | error e =>
      rw [hresult] at hvalid
      cases hvalid
    | ok u => rfl
  · obtain ⟨made, hcompile, hmade⟩ := exists_ok_of_any hcheck
    obtain ⟨made', hrecompile, hmade'⟩ := exists_ok_of_any hmade
    simp only [Bool.and_eq_true, decide_eq_true_eq] at hmade'
    obtain ⟨⟨hsingle, hsingle'⟩, hgrown⟩ := hmade'
    obtain ⟨snapshot, d', hbuild, rfl, hreliable, habsolute, hwithin⟩ :=
      build_printing hcompile hsingle
    obtain ⟨again, d'', hwrite, -⟩ := write_printing (compile_eq_ok.1 hrecompile).1.artifacts
      hsingle' true hreliable habsolute hwithin
    obtain ⟨rfl, -⟩ := write_ok hwrite
    refine ⟨snapshot, d', again, d'', hbuild, rebuild_ok.2 ⟨_, hrecompile, hwrite⟩, ?_⟩
    exact fun hsame => hgrown (congrArg (List.map Artifact.size) hsame)

end Bundler

end Bindery
