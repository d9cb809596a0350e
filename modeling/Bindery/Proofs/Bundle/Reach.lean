import Bindery.Proofs.Bundle.Batch

/-!
# What writing works on

Whatever comes of writing, it works on the files that it is to write, on what is before them beside
their places, and on directories. This is read off the paths alone, so it holds of every path and
whether or not files get into each other's way.

* `Output.AtPath` : the files that writing to a path works on.
* `Output.confined_writeArtifacts` : a batch works on its places and on what is beside them.
* `Output.confined_writeDurably_of` : a single file is written the same way.
* `Output.confined_clear` : only clearing a directory works on all that is there.
-/

namespace Bindery

namespace Output

open Path Location

/-- The file that a path leads to, and the one that is there before it takes its place. -/
def AtPath (base path : String) (loc : Location) : Prop :=
  loc = ofPath base path ∨ loc = ofPath base (tempPath path)

theorem atPath_toPath_iff {base : String} {loc other : Location} (hplain : loc.Plain) (hne : loc ≠ []) :
    AtPath base (toPath loc) other ↔ Touches [loc] other := by
  rw [AtPath, tempPath_toPath hne, ofPath_toPath hplain, ofPath_toPath (plain_beside hplain hne),
    touches_singleton_iff]

/-- The paths that the passes are given lead to the places. -/
theorem Placed.touches_of_atPath {base : String} {top loc other : Location}
    {artifacts : List Artifact} {locs : List Location} (hplaced : Placed top artifacts locs)
    (hloc : loc ∈ locs) (hother : AtPath base (toPath loc) other) : Touches locs other := by
  obtain ⟨hplain, hne⟩ := hplaced.plain loc hloc
  exact ⟨loc, hloc, touches_singleton_iff.1 ((atPath_toPath_iff hplain hne).1 hother)⟩

section Confined

variable {base : String} {dirs : Location → Prop} (hbase : isAbsolute base = true)
include hbase

theorem confined_discard (paths : List String) :
    Disk.Confined base (fun loc => ∃ path ∈ paths, loc = ofPath base path) dirs (discard paths) := by
  induction paths with
  | nil => exact .pure ()
  | cons path r ih =>
    refine Disk.Confined.bind (.tryCatch ?_ fun _ => .pure ()) fun _ => ?_
    · refine (Disk.confined_removeFile hbase path).mono ?_ fun _ => id
      exact fun loc hloc => ⟨path, List.mem_cons_self, hloc⟩
    · refine ih.mono ?_ fun _ => id
      exact fun loc ⟨other, hother, hloc⟩ => ⟨other, List.mem_cons_of_mem path hother, hloc⟩

theorem confined_writeBeside (target : String) (bytes : ByteArray) :
    Disk.Confined base (AtPath base target) (fun _ => True) (writeBeside target bytes) := by
  have hwrite : Disk.Confined base (AtPath base target) (fun _ => True)
      (Disk.writeFile (tempPath target) bytes) :=
    (Disk.confined_writeFile hbase _ bytes).mono (fun _ => .inr) fun _ => id
  unfold writeBeside
  split
  · next directory _ =>
    refine Disk.Confined.bind ?_ fun _ => hwrite
    exact (Disk.confined_ensureDirectory hbase directory).mono (fun _ hnone => hnone.elim) fun _ => id
  · exact hwrite

/-- The first pass works on what is beside the places, and removes no more than that. -/
theorem confined_writeAllBeside (done : List String) (items : List (String × ByteArray)) :
    Disk.Confined base
      (fun loc => (∃ path ∈ done, loc = ofPath base path) ∨ ∃ i ∈ items, AtPath base i.1 loc)
      (fun _ => True) (writeAllBeside done items) := by
  induction items generalizing done with
  | nil => exact .pure ()
  | cons i r ih =>
    obtain ⟨target, bytes⟩ := i
    refine Disk.Confined.bind (confined_forPath (.tryCatch ?_ fun e => ?_) _) fun _ => ?_
    · refine (confined_writeBeside hbase target bytes).mono ?_ fun _ => id
      exact fun loc hloc => .inr ⟨_, List.mem_cons_self, hloc⟩
    · refine .bind ((confined_discard hbase done).mono (fun _ => .inl) fun _ => id) fun _ => ?_
      refine .bind (.tryCatch ?_ fun _ => .pure ()) fun _ => .throw e
      refine (Disk.confined_removeFile hbase _).mono ?_ fun _ => id
      exact fun loc hloc => .inr ⟨_, List.mem_cons_self, .inr hloc⟩
    · refine (ih (done ++ [tempPath target])).mono ?_ fun _ => id
      rintro loc (⟨path, hpath, hloc⟩ | ⟨i, hi, hloc⟩)
      · rcases List.mem_append.1 hpath with hpath | hpath
        · exact .inl ⟨path, hpath, hloc⟩
        · obtain rfl := List.mem_singleton.1 hpath
          exact .inr ⟨_, List.mem_cons_self, .inr hloc⟩
      · exact .inr ⟨i, List.mem_cons_of_mem _ hi, hloc⟩

/-- The second pass works on the places and on what is beside them. -/
theorem confined_placeAll (targets : List String) :
    Disk.Confined base (fun loc => ∃ target ∈ targets, AtPath base target loc) (fun _ => True)
      (placeAll targets) := by
  induction targets with
  | nil => exact .pure ()
  | cons target r ih =>
    refine Disk.Confined.bind (confined_forPath (.tryCatch ?_ fun e => ?_) _) fun _ => ?_
    · refine (Disk.confined_rename hbase _ _).mono ?_ fun _ => id
      exact fun loc hloc => ⟨target, List.mem_cons_self, hloc.symm⟩
    · refine .bind ((confined_discard hbase _).mono ?_ fun _ => id) fun _ => .throw e
      rintro loc ⟨path, hpath, hloc⟩
      obtain ⟨other, hother, rfl⟩ := List.mem_map.1 hpath
      exact ⟨other, hother, .inr hloc⟩
    · refine ih.mono ?_ fun _ => id
      exact fun loc ⟨other, hother, hloc⟩ => ⟨other, List.mem_cons_of_mem target hother, hloc⟩

/-- Whatever comes of writing a batch, it works on the places of its files and on what is beside
them. -/
theorem confined_writeArtifacts (directory : String) (artifacts : List Artifact) :
    Disk.Confined base (Touches (places base directory artifacts)) (fun _ => True)
      (writeArtifacts directory artifacts) := by
  rintro d rfl
  obtain ⟨top, htop, hdirectory⟩ := absolute_eq hbase directory
  have hcourse := course hbase htop hdirectory artifacts
  have hdone : ∀ {locs : List Location} {d₁ : Disk},
      d.Grows (fun _ => False) (· <+: top) d₁ → Placed top artifacts locs →
        d.Grows (Touches locs) (fun _ => True)
          (writeAllBeside [] (named (items locs artifacts)) d₁).2 := by
    intro locs d₁ hmade hplaced
    have hfirst := confined_writeAllBeside hbase [] (named (items locs artifacts)) d₁ hmade.base
    refine (hmade.mono (fun _ hnone => hnone.elim) fun _ _ => trivial).trans
      (hfirst.mono ?_ fun _ => id)
    rintro other (⟨_, hnone, -⟩ | ⟨i, hi, hother⟩)
    · cases hnone
    · obtain ⟨j, hj, rfl⟩ := List.mem_map.1 hi
      exact hplaced.touches_of_atPath (hplaced.of_mem_items hj) hother
  have hboth : ∀ {locs : List Location} {d₁ d₂ : Disk} {u : Unit},
      d.Grows (fun _ => False) (· <+: top) d₁ → Placed top artifacts locs →
        writeAllBeside [] (named (items locs artifacts)) d₁ = (.ok u, d₂) →
          d.Grows (Touches locs) (fun _ => True) (placeAll (locs.map toPath) d₂).2 := by
    intro locs d₁ d₂ u hmade hplaced hfirst
    have hgrows := hdone hmade hplaced
    rw [hfirst] at hgrows
    refine hgrows.trans ((confined_placeAll hbase (locs.map toPath) d₂ hgrows.base).mono ?_
      fun _ => id)
    rintro other ⟨target, htarget, hother⟩
    obtain ⟨loc, hloc, rfl⟩ := List.mem_map.1 htarget
    exact hplaced.touches_of_atPath hloc hother
  generalize writeArtifacts directory artifacts d = run at hcourse
  obtain ⟨result, d'⟩ := run
  cases hcourse with
  | refused e d₁ hmade => exact hmade.mono (fun _ hnone => hnone.elim) fun _ _ => trivial
  | unwritten locs e d₁ d' hmade hplaced hfirst =>
    rw [hplaced.places_eq hdirectory]
    have hgrows := hdone hmade hplaced
    rwa [hfirst] at hgrows
  | unplaced locs e d₁ d₂ d' hmade hplaced hfirst hsecond =>
    rw [hplaced.places_eq hdirectory]
    have hgrows := hboth hmade hplaced hfirst
    rwa [hsecond] at hgrows
  | done locs d₁ d₂ d' hmade hplaced hfirst hsecond =>
    rw [hplaced.places_eq hdirectory]
    have hgrows := hboth hmade hplaced hfirst
    rwa [hsecond] at hgrows

/-- Whatever comes of writing a single file, it works on that file and on what is there before it
takes its place, and makes the directories that its parent needs. -/
theorem confined_writeDurably_of {path : String} (bytes : ByteArray)
    (hparent : ∀ parent, parent? path = some parent →
      Disk.Confined base (fun _ => False) dirs (Disk.ensureDirectory parent)) :
    Disk.Confined base (AtPath base path) dirs (writeDurably path bytes) := by
  have hsettle : Disk.Confined base (AtPath base path) dirs (settle path bytes) := by
    unfold settle
    refine .bind ?_ fun _ => .bind ?_ fun _ => .bind ?_ fun _ => ?_
    · exact (Disk.confined_writeFile hbase _ bytes).mono (fun _ => .inr) fun _ => id
    · exact Disk.confined_sync hbase _
    · exact (Disk.confined_rename hbase _ _).mono (fun _ => Or.symm) fun _ => id
    · unfold syncParent
      split
      · exact .tryCatch (Disk.confined_sync hbase _) fun _ => .pure ()
      · exact .pure ()
  have hput : Disk.Confined base (AtPath base path) dirs
      (forPath path (tryCatch (settle path bytes) fun e => do
        Disk.quietly (Disk.removeFile (tempPath path))
        throw e)) := by
    refine confined_forPath (.tryCatch hsettle fun e => ?_) path
    refine .bind (.tryCatch ?_ fun _ => .pure ()) fun _ => .throw e
    exact (Disk.confined_removeFile hbase _).mono (fun _ => .inr) fun _ => id
  unfold writeDurably
  split
  · next parent hup =>
    refine Disk.Confined.bind (confined_forPath ?_ _) fun _ => hput
    exact (hparent parent hup).mono (fun _ hnone => hnone.elim) fun _ => id
  · exact hput

theorem confined_writeDurably_atPath (path : String) (bytes : ByteArray) :
    Disk.Confined base (AtPath base path) (fun _ => True) (writeDurably path bytes) :=
  confined_writeDurably_of hbase bytes fun parent _ => Disk.confined_ensureDirectory hbase parent

end Confined

/-- Clearing a directory may remove any file, but the disk is seen from where it was. -/
theorem confined_clear (base directory : String) :
    Disk.Confined base (fun _ => True) (fun _ => True) (clear directory) := by
  refine confined_forPath ?_ directory
  intro d _
  have hany : ∀ {t t' : FileTree}, t.Grows (fun _ => True) (fun _ => True) t' :=
    ⟨fun _ hnone => absurd trivial hnone, fun _ _ => .inr trivial⟩
  unfold Disk.clearDirectory
  split
  · exact ⟨rfl, rfl, hany⟩
  · split
    · exact ⟨rfl, rfl, hany⟩
    · exact ⟨rfl, rfl, hany⟩
    · split
      · exact ⟨rfl, rfl, hany⟩
      · split
        · exact ⟨rfl, rfl, hany⟩
        · exact ⟨rfl, rfl, hany⟩

end Output

end Bindery
