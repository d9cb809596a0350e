import Bindery.Proofs.Bundle.Build
import Bindery.Proofs.Bundle.Reach

/-!
# What a build delivers

A build that is done has delivered its files: each one is at its place and holds what the build
made. They are still there after other work that does not reach their places.

* `Bundler.Serves` : the files of a build are all there.
* `Bundler.serves_of_write` : they are when the build has been written.
* `Bundler.Serves.of_grows` : they stay when work elsewhere is done.
* `Bundler.confined_build`, `Bundler.confined_rebuild` : a disk is seen from where it was.
-/

namespace Bindery

namespace Bundler

open Path

variable {b : Bundler} {made : Bundle} {snapshot : Snapshot} {d d' : Disk} {base : String}

/-! ## Where the manifest goes -/

/-- The path of the manifest, for profiles that have one. -/
def manifestTarget? (b : Bundler) : Option String :=
  if b.has .manifest then b.profile.manifestPath?.map (join b.profile.root) else none

theorem manifestTarget?_eq (b : Bundler) (made : Bundle) :
    b.manifestTarget? = (b.manifest? made).map (·.1) := by
  unfold manifestTarget? manifest?
  split
  · rw [Option.map_map]
    rfl
  · rfl

/-- Writing the manifest works on the manifest. -/
theorem confined_writeManifest (hbase : isAbsolute base = true) (b : Bundler) (made : Bundle) :
    Disk.Confined base
      (fun loc => ∃ path, b.manifestTarget? = some path ∧ Output.AtPath base path loc)
      (fun _ => True) (b.writeManifest made) := by
  unfold writeManifest
  cases hmanifest : b.manifest? made with
  | none => exact .pure ()
  | some m =>
    have htarget : b.manifestTarget? = some m.1 := by
      rw [manifestTarget?_eq b made, hmanifest]
      rfl
    refine (Output.confined_writeDurably_atPath hbase m.1 _).mono ?_ fun _ => id
    exact fun loc hloc => ⟨m.1, htarget, hloc⟩

/-! ## From where the disk is seen -/

theorem confined_rebuild (hbase : isAbsolute base = true) (b : Bundler) (p : Project)
    (last : Option Snapshot) (touched : List ModuleId) :
    Disk.Confined base (fun _ => True) (fun _ => True) (b.rebuild p last touched) := by
  unfold rebuild
  cases b.compile p (last.map (·.toBundle)) touched with
  | error e => exact .throw e
  | ok made =>
    show Disk.Confined base _ _ (b.write made last.isSome)
    rw [write_eq]
    refine .bind ((Output.confined_writeArtifacts hbase _ _).mono (fun _ _ => trivial) fun _ => id) ?_
    intro written
    refine .bind ((confined_writeManifest hbase b made).mono (fun _ _ => trivial) fun _ => id) ?_
    exact fun _ => .pure _

theorem confined_prepare (base : String) (b : Bundler) :
    Disk.Confined base (fun _ => True) (fun _ => True) b.prepare := by
  unfold prepare
  split
  · exact Output.confined_clear base _
  · exact .pure ()

theorem confined_build (hbase : isAbsolute base = true) (b : Bundler) (p : Project) :
    Disk.Confined base (fun _ => True) (fun _ => True) (b.build p) :=
  (confined_prepare base b).bind fun _ => confined_rebuild hbase b p none []

/-! ## What is there -/

/-- Every file of a build is at its place below the output directory, and holds what was made. -/
def Serves (b : Bundler) (d : Disk) (snapshot : Snapshot) : Prop :=
  ∀ a ∈ snapshot.artifacts, ∃ path,
    Output.target? (Output.absolute d.base b.profile.outputDirectory) a.file = .ok path ∧
      d.tree.read? (Location.ofPath d.base path) = some a.bytes

/-- The places of the files of a build. -/
def places (b : Bundler) (base : String) (snapshot : Snapshot) : List Location :=
  Output.places base b.profile.outputDirectory snapshot.artifacts

theorem mem_places {a : Artifact} (ha : a ∈ snapshot.artifacts) {path : String}
    (htarget : Output.target? (Output.absolute base b.profile.outputDirectory) a.file = .ok path) :
    Location.ofPath base path ∈ b.places base snapshot := by
  refine List.mem_filterMap.2 ⟨a, ha, ?_⟩
  rw [htarget]
  rfl

/-- Work that does not reach the places leaves the files there. -/
theorem Serves.of_grows (h : b.Serves d snapshot) {files dirs : Location → Prop}
    (hgrows : d.Grows files dirs d') (hapart : ∀ loc ∈ b.places d.base snapshot, ¬files loc) :
    b.Serves d' snapshot := by
  intro a ha
  obtain ⟨path, htarget, hread⟩ := h a ha
  refine ⟨path, ?_, ?_⟩
  · rw [hgrows.base]
    exact htarget
  · rw [hgrows.base, hgrows.tree.read?_eq (hapart _ (mem_places ha htarget))]
    exact hread

/-- The files of a build that has been written are there, as long as none has its place where
another one waits, or where the manifest goes. -/
theorem serves_of_write (habsolute : isAbsolute d.base = true) {isRebuild : Bool}
    (h : b.write made isRebuild d = (.ok snapshot, d'))
    (hbeside : ∀ loc ∈ b.places d.base snapshot, ∀ other ∈ b.places d.base snapshot,
      Output.beside loc ≠ other)
    (hmanifest : ∀ path, b.manifestTarget? = some path →
      ∀ loc ∈ b.places d.base snapshot, ¬Output.AtPath d.base path loc) :
    b.Serves d' snapshot := by
  obtain ⟨rfl, -, d₁, hfiles, hwrite⟩ := write_ok h
  obtain ⟨top, htop, hdirectory⟩ := Output.absolute_eq habsolute b.profile.outputDirectory
  obtain ⟨locs, -, hplaced, hwritten⟩ :=
    Output.writeArtifacts_ok habsolute htop hdirectory hfiles
  have hplaces : b.places d.base snapshot = locs := hplaced.places_eq hdirectory
  rw [hplaces] at hbeside
  obtain ⟨hgrows, hthere, -⟩ := hwritten hbeside
  -- the files are there before the manifest is written
  have hserves : b.Serves d₁ snapshot := by
    intro a ha
    obtain ⟨loc, hmem⟩ := hplaced.exists_place ha
    obtain ⟨htarget, hplain, -⟩ := (List.forall₂_iff_zip.1 hplaced).2 hmem
    rw [hgrows.base, hdirectory]
    refine ⟨Location.toPath loc, htarget, ?_⟩
    rw [Location.ofPath_toPath hplain]
    exact hthere _ (Output.mem_items hmem)
  have hconfined := confined_writeManifest habsolute b snapshot.toBundle d₁ hgrows.base
  rw [hwrite] at hconfined
  refine hserves.of_grows hconfined ?_
  rintro loc hloc ⟨path, htarget, hat⟩
  rw [hgrows.base] at hloc
  exact hmanifest path htarget loc hloc hat

end Bundler

end Bindery
