import Bindery.Bundle.SizeHint
import Bindery.Proofs.Bundle.BootOrder
import Bindery.Proofs.Bundle.Manifest

/-!
# What hints are about

What an entry loads before it starts is worked out from the manifest: the address of each file is cut
back to a name, and the name is looked up among the files. That comes to the files of the chunks that
the entry needs from the start, each counted once, because an address begins with the public path
whatever else the name of the file holds, and because neither two files nor two chunks share a name.

* `SizeHint.fileName_append` : an address leads back to the name of its file.
* `Manifest.flatMap_filesOf_perm` : the files of some chunks are counted once each.
* `SizeHint.upFrontSize_ofEntry` : what an entry loads before it starts.
* `SizeHint.split_check_exact` : the hints about a build for production.
-/

namespace Bindery

/-! ## Totals -/

theorem total_perm {l l' : List Nat} (h : l.Perm l') : total l = total l' := by
  induction h with
  | nil => rfl
  | cons n _ ih => exact congrArg (n + ·) ih
  | swap m n l => exact Nat.add_left_comm n m (total l)
  | trans _ _ ih ih' => exact ih.trans ih'

/-! ## Files by the names of their chunks -/

/-- What comes from the elements that pass a test comes from all of them, with nothing from the
others. -/
theorem flatMap_filter {α β : Type} (p : α → Bool) (f : α → List β) (l : List α) :
    (l.filter p).flatMap f = l.flatMap fun a => if p a then f a else [] := by
  induction l with
  | nil => rfl
  | cons a l ih =>
    rw [List.filter_cons, List.flatMap_cons, ← ih]
    cases p a <;> rfl

/-- What passes one of two tests that exclude each other is what passes the first one and what passes
the second one. -/
theorem filter_append_filter_perm {α : Type} {p q : α → Bool} (l : List α)
    (h : ∀ a ∈ l, p a = true → q a = false) :
    (l.filter p ++ l.filter q).Perm (l.filter fun a => p a || q a) := by
  have hfirst : (l.filter fun a => p a || q a).filter p = l.filter p := by
    rw [List.filter_filter]
    refine List.filter_congr fun a _ => ?_
    cases p a <;> simp
  have hsecond : (l.filter fun a => p a || q a).filter (fun a => !p a) = l.filter q := by
    rw [List.filter_filter]
    refine List.filter_congr fun a ha => ?_
    cases hp : p a with
    | true => simp [h a ha hp]
    | false => simp
  have hparts := List.filter_append_perm p (l.filter fun a => p a || q a)
  rwa [hfirst, hsecond] at hparts

namespace Manifest

variable {artifacts : List Artifact}

/-- The files that are found by the name of a chunk are its style sheets and its scripts. -/
theorem filesOf_perm (chunk : String) : (filesOf artifacts chunk).Perm
    (artifacts.filter fun a => a.kind.isCode && decide (a.chunk = some chunk)) := by
  have hkinds := filter_append_filter_perm (p := fun a : Artifact => a.kind = .style)
    (q := fun a => a.kind = .script) (artifacts.filter fun a => a.chunk = some chunk)
    (fun a _ hstyle => by simp [of_decide_eq_true hstyle])
  refine hkinds.trans (List.Perm.of_eq ?_)
  rw [List.filter_filter]
  refine List.filter_congr fun a _ => congrArg (· && _) ?_
  cases a.kind <;> rfl

/-- Where chunks have names of their own, no file is found by two of them. -/
theorem flatMap_filesOf_perm (artifacts : List Artifact) {names : List String} (h : names.Nodup) :
    (names.flatMap (filesOf artifacts)).Perm
      (artifacts.filter fun a => a.kind.isCode && names.any fun n => a.chunk = some n) := by
  induction names with
  | nil => simp
  | cons name names ih =>
    rw [List.nodup_cons] at h
    have happart : ∀ a ∈ artifacts, (a.kind.isCode && decide (a.chunk = some name)) = true →
        (a.kind.isCode && names.any fun n => a.chunk = some n) = false := by
      intro a _ hname
      obtain ⟨-, hchunk⟩ := Bool.and_eq_true_iff.1 hname
      rw [Bool.and_eq_false_iff, List.any_eq_false]
      refine .inr fun n hn hother => h.1 ?_
      rw [of_decide_eq_true hchunk] at hother
      rwa [Option.some.inj (of_decide_eq_true hother)]
    calc (name :: names).flatMap (filesOf artifacts)
        = filesOf artifacts name ++ names.flatMap (filesOf artifacts) := List.flatMap_cons
      _ |>.Perm ((artifacts.filter fun a => a.kind.isCode && decide (a.chunk = some name)) ++
          artifacts.filter fun a => a.kind.isCode && names.any fun n => a.chunk = some n) :=
          (filesOf_perm name).append (ih h.2)
      _ |>.Perm (artifacts.filter fun a => (a.kind.isCode && decide (a.chunk = some name)) ||
          (a.kind.isCode && names.any fun n => a.chunk = some n)) :=
          filter_append_filter_perm artifacts happart
      _ = artifacts.filter fun a =>
          a.kind.isCode && (name :: names).any fun n => a.chunk = some n := by
          refine List.filter_congr fun a _ => ?_
          rw [List.any_cons, Bool.and_or_distrib_left]

end Manifest

/-! ## Chunks that are loaded at the start -/

namespace ChunkSet

variable {chunks : ChunkSet} {g : ModuleGraph} {e : String}

/-- The names of the chunks that an entry needs from the start. -/
def namesAtStart (chunks : ChunkSet) (g : ModuleGraph) (e : String) : List String :=
  ((chunks.forEntry g e).filter (·.2)).map fun i => (chunks.map (·.name)).getD i.1 ""

theorem getD_name {i : Nat} {c : Chunk} (hc : chunks[i]? = some c) :
    (chunks.map (·.name)).getD i "" = c.name := by
  simp [List.getD, hc]

/-- Where chunks have names of their own and none is listed twice, no name is. -/
theorem nodup_namesAtStart (hnames : (chunks.map (·.name)).Nodup)
    (honce : ((chunks.forEntry g e).map (·.1)).Nodup) : (chunks.namesAtStart g e).Nodup := by
  have hplaces : (((chunks.forEntry g e).filter (·.2)).map (·.1)).Nodup :=
    honce.sublist (List.filter_sublist.map _)
  refine List.Nodup.map_on ?_ (List.Nodup.of_map _ hplaces)
  intro i hi j hj hname
  obtain ⟨hi, hnow⟩ := List.mem_filter.1 hi
  obtain ⟨hj, hnow'⟩ := List.mem_filter.1 hj
  have hplace := List.getElem?_eq_getElem (lt_of_mem_forEntry hi)
  have hplace' := List.getElem?_eq_getElem (lt_of_mem_forEntry hj)
  rw [getD_name hplace, getD_name hplace'] at hname
  exact Prod.ext (Split.place_eq_of_key_eq hnames hplace hplace' hname) (hnow.trans hnow'.symm)

end ChunkSet

/-! ## Entries -/

namespace SizeHint

variable {chunks : ChunkSet} {g : ModuleGraph} {artifacts : List Artifact} {outputs : ModuleOutputs}
  {publicPath e : String}

/-- A script or a style sheet of a chunk that an entry needs from the start. -/
def isLoadedAtStart (chunks : ChunkSet) (g : ModuleGraph) (e : String) (a : Artifact) : Bool :=
  a.kind.isCode && (chunks.forEntry g e).any fun i =>
    i.2 && chunks[i.1]?.any fun c => a.chunk = some c.name

/-- What an entry loads before it starts, each file counted once. -/
def sizeAtStart (chunks : ChunkSet) (g : ModuleGraph) (artifacts : List Artifact) (e : String) : Nat :=
  total ((artifacts.filter (isLoadedAtStart chunks g e)).map Artifact.size)

theorem isLoadedAtStart_eq (chunks : ChunkSet) (g : ModuleGraph) (e : String) (a : Artifact) :
    isLoadedAtStart chunks g e a =
      (a.kind.isCode && (chunks.namesAtStart g e).any fun n => a.chunk = some n) := by
  refine congrArg (a.kind.isCode && ·) ?_
  rw [ChunkSet.namesAtStart, List.any_map, List.any_filter, Bool.eq_iff_iff, List.any_eq_true,
    List.any_eq_true]
  refine exists_congr fun i => and_congr_right fun hi => ?_
  have hplace := List.getElem?_eq_getElem (ChunkSet.lt_of_mem_forEntry hi)
  rw [Function.comp_apply, ChunkSet.getD_name hplace, hplace, Option.any_some]

/-- An address is the public path with the name of the file behind it, even where the public path
occurs in the name again. -/
theorem fileName_append (publicPath file : String) :
    fileName publicPath (publicPath ++ file) = file := by
  rw [fileName, String.toList_append, Text.stripStart?_append]
  exact String.ofList_toList

/-- Where files have names of their own, a file is found by its address. -/
theorem find?_listed (hfiles : (artifacts.map (·.file)).Nodup) {a : Artifact} (ha : a ∈ artifacts)
    (publicPath : String) (now : Bool) :
    artifacts.find? (·.file = fileName publicPath (a.listed publicPath now).path) = some a := by
  have hname : fileName publicPath (a.listed publicPath now).path = a.file :=
    fileName_append publicPath a.file
  rw [hname]
  cases hfound : artifacts.find? (·.file = a.file) with
  | none =>
    have hnone := List.find?_eq_none.1 hfound a ha
    exact absurd (decide_eq_true rfl) hnone
  | some other =>
    have hfile : other.file = a.file := by simpa using List.find?_some hfound
    rw [List.inj_on_of_nodup_map hfiles (List.mem_of_find?_eq_some hfound) ha hfile]

/-- The files of an entry that are marked in its list are those of the chunks that it needs from the
start. -/
theorem filter_isEntryPoint_ofEntry :
    (Manifest.ofEntry g chunks artifacts outputs publicPath e).filter (·.isEntryPoint) =
      ((chunks.namesAtStart g e).flatMap (Manifest.filesOf artifacts)).map
        (Artifact.listed publicPath true) := by
  have hcopies : ∀ files : List String, (files.map fun file =>
      { path := publicPath ++ file, isEntryPoint := false, kind := .asset : ManifestFile }).filter
        (·.isEntryPoint) = [] := by
    intro files
    refine List.filter_eq_nil_iff.2 fun f hf => ?_
    obtain ⟨file, -, rfl⟩ := List.mem_map.1 hf
    exact Bool.false_ne_true
  have hchunk : ∀ (now : Bool) (files : List Artifact),
      (files.map (Artifact.listed publicPath now)).filter (·.isEntryPoint) =
        if now then files.map (Artifact.listed publicPath true) else [] := by
    intro now files
    cases now with
    | true =>
      refine List.filter_eq_self.2 fun f hf => ?_
      obtain ⟨a, -, rfl⟩ := List.mem_map.1 hf
      rfl
    | false =>
      refine List.filter_eq_nil_iff.2 fun f hf => ?_
      obtain ⟨a, -, rfl⟩ := List.mem_map.1 hf
      exact Bool.false_ne_true
  rw [Manifest.ofEntry, List.filter_append, hcopies, List.append_nil, List.filter_flatMap,
    ChunkSet.namesAtStart, List.flatMap_map, List.map_flatMap, flatMap_filter]
  refine List.flatMap_congr fun i _ => ?_
  exact hchunk i.2 (Manifest.filesOf artifacts ((chunks.map (·.name)).getD i.1 ""))

/-- What is worked out from the addresses of an entry is the size of the files of the chunks that it
needs from the start. -/
theorem upFrontSize_ofEntry (hfiles : (artifacts.map (·.file)).Nodup)
    (hnames : (chunks.map (·.name)).Nodup) (honce : ((chunks.forEntry g e).map (·.1)).Nodup) :
    upFrontSize artifacts publicPath (Manifest.ofEntry g chunks artifacts outputs publicPath e) =
      sizeAtStart chunks g artifacts e := by
  have hperm := Manifest.flatMap_filesOf_perm artifacts
    (ChunkSet.nodup_namesAtStart hnames honce)
  have hfound : (((chunks.namesAtStart g e).flatMap (Manifest.filesOf artifacts)).map
      (Artifact.listed publicPath true)).filterMap (fun f =>
        artifacts.find? (·.file = fileName publicPath f.path)) =
      (chunks.namesAtStart g e).flatMap (Manifest.filesOf artifacts) := by
    rw [List.filterMap_map]
    refine (List.filterMap_congr fun a ha => ?_).trans List.filterMap_some
    exact find?_listed hfiles (List.mem_of_mem_filter (hperm.mem_iff.1 ha)) publicPath true
  rw [upFrontSize, filter_isEntryPoint_ofEntry, hfound, sizeAtStart,
    funext (isLoadedAtStart_eq chunks g e)]
  exact total_perm (hperm.map Artifact.size)

/-! ## Builds for production -/

/-- The list of an entry of a build for production names no chunk twice. -/
theorem nodup_forEntry_split {p : Profile} {settings : SplitSettings}
    (hproduction : p.split? = some settings) (g : ModuleGraph) (assets : List ModuleId)
    (e : String) : (((g.split p assets).forEntry g e).map (·.1)).Nodup := by
  simp only [ModuleGraph.split, hproduction]
  cases hroots : g.entries.lookup e with
  | none => simp [ChunkSet.forEntry, hroots]
  | some roots =>
    obtain ⟨own, hown⟩ := Split.exists_entryIndex? settings assets hroots
    exact ChunkSet.nodup_forEntry (Split.shared_partitions g settings assets) hroots hown

/-- The hints about a build for production tell exactly the files that are too large, source maps left
out, and then exactly the entries, in the order in which they are declared, that load too much before
they start, with what the scripts and style sheets of the chunks come to that they need from the start.
That holds for all files with names of their own and wherever they are served. -/
theorem split_check_exact (s : PerformanceSettings) (hhints : s.hints = true) (p : Profile)
    (settings : SplitSettings) (hproduction : p.split? = some settings) (g : ModuleGraph)
    (assets : List ModuleId) (artifacts : List Artifact)
    (hfiles : (artifacts.map (·.file)).Nodup) (outputs : ModuleOutputs) (entries : List String)
    (publicPath : String) :
    check s artifacts
        (Manifest.ofBuild entries g (g.split p assets) artifacts outputs publicPath) publicPath =
      ((artifacts.filter fun a => a.kind ≠ .sourceMap ∧ s.maxAssetSize < a.size).map
        fun a => .asset a.file a.size s.maxAssetSize) ++
      ((entries.filter fun e =>
        s.maxEntrypointSize < sizeAtStart (g.split p assets) g artifacts e).map fun e =>
          .entry e (sizeAtStart (g.split p assets) g artifacts e) s.maxEntrypointSize) := by
  have hnames : ((g.split p assets).map (·.name)).Nodup := by
    simp only [ModuleGraph.split, hproduction]
    exact Split.nodup_names_shared g settings assets
  have hsize : ∀ e, upFrontSize artifacts publicPath
      (Manifest.ofEntry g (g.split p assets) artifacts outputs publicPath e) =
        sizeAtStart (g.split p assets) g artifacts e :=
    fun e => upFrontSize_ofEntry hfiles hnames (nodup_forEntry_split hproduction g assets e)
  rw [check, if_pos hhints]
  refine congrArg₂ (· ++ ·) (congrArg _ ?_) ?_
  · rw [List.filter_filter]
    refine List.filter_congr fun a _ => ?_
    rw [Bool.eq_iff_iff]
    simp [and_comm]
  · simp only [Manifest.ofBuild, List.map_map, List.filter_map, Function.comp_def, hsize, gt_iff_lt]

/-- A file of a chunk. -/
def fileOf (chunk file : String) (kind : ArtifactKind) (text : String) : Artifact :=
  { file, kind, chunk := some chunk, fingerprint := none, bytes := text.toUTF8 }

/-- Files of two pages. The path below which they are served occurs in the names of some of them. -/
def pageFiles : List Artifact :=
  [fileOf "main" "s/main.js" .script "abc", fileOf "main" "s/main.js.map" .sourceMap "0123456789",
    fileOf "main" "main.css" .style "ab", fileOf "main~help" "s/s/shared.js" .script "u",
    fileOf "help" "help.js" .script "h", fileOf "lazy" "lazy.js" .script "123456789"]

/-- The first page loads its script, its style sheet and the script that both pages share; what it loads
on demand is too large but does not count for it. -/
theorem split_check_exact_twoPages :
    Split.unmerged.split? = some { minSize := 0, groups := [] } ∧
      (pageFiles.map (·.file)).Nodup ∧
      check { hints := true, maxAssetSize := 8, maxEntrypointSize := 5 } pageFiles
          (Manifest.ofBuild ["main", "help"] Split.twoPages (Split.twoPages.split Split.unmerged [])
            pageFiles {} "s/") "s/" =
        [.asset "lazy.js" 9 8, .entry "main" 6 5] := by
  have hfiles : (pageFiles.map (·.file)).Nodup := by decide
  refine ⟨rfl, hfiles, ?_⟩
  rw [split_check_exact { hints := true, maxAssetSize := 8, maxEntrypointSize := 5 } rfl
    Split.unmerged { minSize := 0, groups := [] } rfl Split.twoPages [] pageFiles hfiles]
  decide +kernel

end SizeHint

end Bindery
