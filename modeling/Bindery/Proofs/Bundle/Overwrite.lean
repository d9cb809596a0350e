import Bindery.Proofs.Bundle.Directories
import Bindery.Proofs.Bundle.Durable

/-!
# Writing again what was written

There is a way to every file that was written. So it can be written once more, unless a directory has
come to be where it waits for its place, and writing it again makes no directory.

* `Output.Way`, `Output.Replaceable` : ways to files, with nothing in the way of writing them again.
* `Output.written_of_writeArtifacts`, `Output.way_of_writeDurably` : what is known of files that were
  written.
* `Output.beside_of_locate` : where a file waits, however its path is written.
* `Output.writeArtifacts_again`, `Output.writeDurably_again` : what was written can be written again.
-/

namespace Bindery

open Path Location

namespace Output

variable {d d' e e' : Disk} {directory path : String} {bytes : ByteArray} {artifacts : List Artifact}
  {top loc : Location} {locs : List Location} {u : Unit}

/-! ## The way to a file -/

/-- Makes the directory of a file. -/
def ensureParent (path : String) : DiskM Unit :=
  match parent? path with
  | some directory => Disk.ensureDirectory directory
  | none => pure ()

theorem writeBeside_eq (path : String) (bytes : ByteArray) : writeBeside path bytes =
    (ensureParent path >>= fun _ => Disk.writeFile (tempPath path) bytes) := by
  unfold writeBeside ensureParent
  cases parent? path with
  | none => rfl
  | some directory => rfl

/-- The directory of a file is there. -/
def Parented (d : Disk) (path : String) : Prop :=
  ∀ parent, parent? path = some parent → parent = "" ∨ d.isDir parent = true

theorem parented_of_ensureParent (habsolute : isAbsolute d.base = true)
    (h : ensureParent path d = (.ok u, d')) : d.Keeps d' ∧ Parented d' path := by
  unfold ensureParent at h
  unfold Parented
  cases hparent : parent? path with
  | none =>
    rw [hparent] at h
    cases h
    exact ⟨.refl d, by simp⟩
  | some directory =>
    rw [hparent] at h
    replace h : Disk.ensureDirectory directory d = (.ok u, d') := h
    have hgrows := Disk.confined_ensureDirectory habsolute directory d rfl
    rw [h] at hgrows
    refine ⟨.of_grows hgrows, ?_⟩
    intro parent heq
    obtain rfl := Option.some.inj heq
    by_cases hempty : directory = ""
    · exact .inl hempty
    · exact .inr (Disk.ensureDirectory_ok hempty h)

/-- Where the directory is there, nothing is made. -/
theorem ensureParent_of_parented (h : Parented d path) (hreliable : d.Reliable) :
    ∃ d', ensureParent path d = (.ok (), d') ∧ d'.tree = d.tree ∧ d.SameDirs d' := by
  unfold ensureParent
  cases hparent : parent? path with
  | none => exact ⟨d, rfl, rfl, .refl d⟩
  | some directory =>
    by_cases hempty : directory = ""
    · subst hempty
      exact ⟨d, rfl, rfl, .refl d⟩
    · have hdir := (h directory hparent).resolve_left hempty
      exact ⟨_, Disk.ensureDirectory_of_isDir hreliable hempty hdir, rfl, .after d⟩

/-- There is a way to a file: its directory is there, and its path leads to it, as the path of what
waits for its place leads beside it. -/
structure Way (d : Disk) (path : String) (loc : Location) : Prop where
  parent : Parented d path
  place : d.locate path = .ok loc
  waiting : d.locate (tempPath path) = .ok (beside loc)
  ne_nil : loc ≠ []

theorem Way.of_keeps (h : Way d path loc) (hkeeps : d.Keeps d') : Way d' path loc where
  parent parent hparent := (h.parent parent hparent).imp_right (Disk.isDir_of_keeps hkeeps)
  place := Disk.locate_of_keeps hkeeps h.place
  waiting := Disk.locate_of_keeps hkeeps h.waiting
  ne_nil := h.ne_nil

/-- Nothing is in the way of writing a file again. -/
structure Replaceable (d : Disk) (path : String) (loc : Location) : Prop extends Way d path loc where
  free : d.tree.isDir loc = false
  vacant : d.tree.Vacant (beside loc)

namespace Replaceable

theorem of_sameDirs (h : Replaceable d path loc) (hsame : d.SameDirs d') :
    Replaceable d' path loc where
  toWay := h.toWay.of_keeps hsame.keeps
  free := (hsame.tree.isDir loc h.ne_nil).trans h.free
  vacant := hsame.tree.vacant _ (by simp [beside]) h.vacant

/-- It is written where it waits. -/
theorem writeFile (h : Replaceable d path loc) (hreliable : d.Reliable) (bytes : ByteArray) :
    ∃ d', Disk.writeFile (tempPath path) bytes d = (.ok (), d') :=
  Disk.writeFile_of_leads hreliable h.waiting (by simp [beside]) h.vacant.isDir_eq_false bytes

/-- It takes its place from there. -/
theorem rename (h : Replaceable d path loc) (hreliable : d.Reliable)
    (hfile : d.tree.isFile (beside loc) = true) :
    ∃ d', Disk.rename (tempPath path) path d = (.ok (), d') ∧ d.SameDirs d' := by
  obtain ⟨content, hread⟩ := FileTree.isFile_iff.1 hfile
  have hrename := Disk.rename_eq (hreliable d.steps) h.waiting h.place hread h.ne_nil h.free
  exact ⟨_, hrename, Disk.sameDirs_of_rename h.waiting h.place (fun _ => (above_beside_iff h.ne_nil).1)
    h.vacant hrename⟩

end Replaceable

/-- What is a file after one was written. -/
theorem isFile_of_writeFile (habsolute : isAbsolute d.base = true) (hlocate : d.locate path = .ok loc)
    (h : Disk.writeFile path bytes d = (.ok u, d')) (other : Location) :
    d'.tree.isFile other = true ↔ other = loc ∨ d.tree.isFile other = true := by
  obtain ⟨loc', hlocate', -, -, -, -, hfind⟩ := Disk.writeFile_ok habsolute h
  obtain rfl : loc = loc' := Except.ok.inj (hlocate.symm.trans hlocate')
  unfold FileTree.isFile
  rw [FileTree.read?_eq, hfind]
  by_cases hother : other = loc
  · simp [hother]
  · rw [if_neg hother, ← FileTree.read?_eq]
    simp [hother]

/-- What is a file after one has taken its place. -/
theorem isFile_of_rename (habsolute : isAbsolute d.base = true) (hplain : loc.Plain) (hne : loc ≠ [])
    (h : Disk.rename (tempPath (toPath loc)) (toPath loc) d = (.ok u, d')) (other : Location) :
    d'.tree.isFile other = true ↔ other = loc ∨ other ≠ beside loc ∧ d.tree.isFile other = true := by
  obtain ⟨content, -, -, -, -, hfind⟩ := rename_spec habsolute hplain hne h
  unfold FileTree.isFile
  rw [FileTree.read?_eq, hfind]
  by_cases hplace : other = loc
  · simp [hplace]
  · by_cases hgone : other = beside loc
    · simp [hgone, beside_ne hne]
    · rw [if_neg hplace, if_neg hgone, ← FileTree.read?_eq]
      simp [hplace, hgone]

/-! ## Batches -/

/-- Writing beside a place keeps all directories, and there is a way to what waits there. -/
theorem way_of_writeBeside (habsolute : isAbsolute d.base = true) (hplain : loc.Plain)
    (hne : loc ≠ []) (h : writeBeside (toPath loc) bytes d = (.ok u, d')) :
    d.Keeps d' ∧ Parented d' (toPath loc) ∧ d'.locate (toPath (beside loc)) = .ok (beside loc) := by
  rw [writeBeside_eq] at h
  obtain ⟨v, d₁, hparent, hwrite⟩ := Work.bind_eq_ok.1 h
  obtain ⟨hkeeps, hparented⟩ := parented_of_ensureParent habsolute hparent
  have habsolute₁ := hkeeps.isAbsolute habsolute
  rw [tempPath_toPath hne] at hwrite
  have hkeeps₁ := (Disk.sameDirs_of_writeFile habsolute₁ hwrite).keeps
  obtain ⟨waiting, hlocate, -⟩ := Disk.writeFile_ok habsolute₁ hwrite
  obtain rfl : waiting = beside loc :=
    (Disk.locate_eq habsolute₁ hlocate).trans (ofPath_toPath (plain_beside hplain hne) d₁.base)
  refine ⟨hkeeps.trans hkeeps₁, ?_, Disk.locate_of_keeps hkeeps₁ hlocate⟩
  exact fun parent heq => (hparented parent heq).imp_right (Disk.isDir_of_keeps hkeeps₁)

theorem ways_of_writeAllBeside (items : List (Location × ByteArray)) (done : List String)
    (habsolute : isAbsolute d.base = true) (hplaces : ∀ i ∈ items, i.1.Plain ∧ i.1 ≠ [])
    (h : writeAllBeside done (named items) d = (.ok u, d')) :
    d.Keeps d' ∧ ∀ i ∈ items, Parented d' (toPath i.1) ∧
      d'.locate (toPath (beside i.1)) = .ok (beside i.1) := by
  induction items generalizing d done with
  | nil =>
    cases h
    exact ⟨.refl _, by simp⟩
  | cons i r ih =>
    obtain ⟨⟨hplain, hne⟩, hrest⟩ := List.forall_mem_cons.1 hplaces
    rcases writeAllBeside_cons_cases h with ⟨d₁, hwrite, hwriteRest⟩ | ⟨_, _, -, -, hfailed⟩
    · obtain ⟨hkeeps, hparented, hlocate⟩ := way_of_writeBeside habsolute hplain hne hwrite
      obtain ⟨hkeeps', hways⟩ := ih _ (hkeeps.isAbsolute habsolute) hrest hwriteRest
      refine ⟨hkeeps.trans hkeeps', List.forall_mem_cons.2 ⟨⟨?_, ?_⟩, hways⟩⟩
      · exact fun parent heq => (hparented parent heq).imp_right (Disk.isDir_of_keeps hkeeps')
      · exact Disk.locate_of_keeps hkeeps' hlocate
    · cases hfailed

/-- A file stays where it is unless it waits for its place. -/
theorem isFile_of_placeAll (places : List Location) (habsolute : isAbsolute d.base = true)
    (hplaces : ∀ loc ∈ places, loc.Plain ∧ loc ≠ [])
    (h : placeAll (places.map toPath) d = (.ok u, d')) (hfile : d.tree.isFile loc = true) :
    d'.tree.isFile loc = true ∨ ∃ other ∈ places, loc = beside other := by
  induction places generalizing d with
  | nil =>
    cases h
    exact .inl hfile
  | cons place r ih =>
    obtain ⟨⟨hplain, hne⟩, hrest⟩ := List.forall_mem_cons.1 hplaces
    rcases placeAll_cons_cases h with ⟨d₁, hrename, hplaceRest⟩ | ⟨_, _, -, -, hfailed⟩
    · obtain ⟨-, -, -, hbase, -, -⟩ := rename_spec habsolute hplain hne hrename
      by_cases hwaits : loc = beside place
      · exact .inr ⟨place, List.mem_cons_self, hwaits⟩
      · have hstill := (isFile_of_rename habsolute hplain hne hrename loc).2 (.inr ⟨hwaits, hfile⟩)
        rcases ih (hbase ▸ habsolute) hrest hplaceRest hstill with hthere | ⟨other, hother, heq⟩
        · exact .inl hthere
        · exact .inr ⟨other, List.mem_cons_of_mem _ hother, heq⟩
    · cases hfailed

/-- Files that have taken their places are there, unless another one waited in its place. -/
theorem there_of_placeAll (places : List Location) (habsolute : isAbsolute d.base = true)
    (hplaces : ∀ loc ∈ places, loc.Plain ∧ loc ≠ [])
    (h : placeAll (places.map toPath) d = (.ok u, d')) :
    d.Keeps d' ∧ ∀ loc ∈ places, d'.locate (toPath loc) = .ok loc ∧
      (d'.tree.isFile loc = true ∨ ∃ other ∈ places, loc = beside other) := by
  induction places generalizing d with
  | nil =>
    cases h
    exact ⟨.refl _, by simp⟩
  | cons place r ih =>
    obtain ⟨⟨hplain, hne⟩, hrest⟩ := List.forall_mem_cons.1 hplaces
    rcases placeAll_cons_cases h with ⟨d₁, hrename, hplaceRest⟩ | ⟨_, _, -, -, hfailed⟩
    · obtain ⟨waiting, target, -, hwaiting, htarget, -⟩ := Disk.rename_ok hrename
      obtain rfl : target = place :=
        (Disk.locate_eq habsolute htarget).trans (ofPath_toPath hplain d.base)
      rw [tempPath_toPath hne] at hwaiting
      obtain rfl : waiting = beside target :=
        (Disk.locate_eq habsolute hwaiting).trans (ofPath_toPath (plain_beside hplain hne) d.base)
      rw [← tempPath_toPath hne] at hwaiting
      obtain ⟨hkeeps, hfile⟩ :=
        Disk.keeps_of_rename hwaiting (fun _ => (above_beside_iff hne).1) htarget hrename
      have habsolute₁ := hkeeps.isAbsolute habsolute
      obtain ⟨hkeeps', hthere⟩ := ih habsolute₁ hrest hplaceRest
      refine ⟨hkeeps.trans hkeeps', List.forall_mem_cons.2 ⟨⟨?_, ?_⟩, ?_⟩⟩
      · exact Disk.locate_of_keeps hkeeps' (Disk.locate_of_keeps hkeeps htarget)
      · rcases isFile_of_placeAll r habsolute₁ hrest hplaceRest hfile with hstill | ⟨other, hother, heq⟩
        · exact .inl hstill
        · exact .inr ⟨other, List.mem_cons_of_mem _ hother, heq⟩
      · intro loc hloc
        obtain ⟨hlocate, hfile⟩ := hthere loc hloc
        refine ⟨hlocate, hfile.imp_right ?_⟩
        rintro ⟨other, hother, heq⟩
        exact ⟨other, List.mem_cons_of_mem _ hother, heq⟩
    · cases hfailed

/-- What is known of the places of a batch that was written. -/
structure Written (d : Disk) (top : Location) (locs : List Location) : Prop where
  /-- The output directory is there. -/
  top : d.isDir (toPath top) = true
  ways : ∀ loc ∈ locs, Way d (toPath loc) loc
  there : ∀ loc ∈ locs, d.tree.isFile loc = true ∨ ∃ other ∈ locs, loc = beside other
  /-- All files have taken their places once. -/
  placed : ∃ e e' : Disk, isAbsolute e.base = true ∧ placeAll (locs.map toPath) e = (.ok (), e')

theorem written_of_writeArtifacts (habsolute : isAbsolute d.base = true) (htop : top.Plain)
    (hdirectory : absolute d.base directory = toPath top) {paths : List String}
    (h : writeArtifacts directory artifacts d = (.ok paths, d')) :
    d.Keeps d' ∧ ∃ locs, Placed top artifacts locs ∧ Written d' top locs := by
  obtain ⟨locs, d₁, d₂, hplaced, -, hensure, hfirst, hsecond⟩ :=
    (writeArtifacts_eq_ok htop hdirectory).1 h
  have hmade : d.Grows (fun _ => False) (fun _ => True) d₁ := by
    have hconfined := Disk.confined_ensureDirectory habsolute (toPath top) d rfl
    rwa [hensure] at hconfined
  have habsolute₁ := hmade.isAbsolute habsolute
  obtain ⟨hkeeps₂, hways⟩ := ways_of_writeAllBeside _ _ habsolute₁
    (fun i hi => hplaced.plain i.1 (hplaced.of_mem_items hi)) hfirst
  have habsolute₂ := hkeeps₂.isAbsolute habsolute₁
  obtain ⟨hkeeps₃, hthere⟩ := there_of_placeAll locs habsolute₂ hplaced.plain hsecond
  refine ⟨(Disk.Keeps.of_grows hmade).trans (hkeeps₂.trans hkeeps₃), locs, hplaced, ?_⟩
  constructor
  · refine Disk.isDir_of_keeps (hkeeps₂.trans hkeeps₃) (Disk.ensureDirectory_ok ?_ hensure)
    simp [toPath]
  · intro loc hloc
    obtain ⟨i, hi, rfl⟩ := hplaced.exists_item hloc
    obtain ⟨hparented, hwaiting⟩ := hways i hi
    have hne := (hplaced.plain i.1 hloc).2
    refine ⟨?_, (hthere i.1 hloc).1, ?_, hne⟩
    · exact fun parent heq => (hparented parent heq).imp_right (Disk.isDir_of_keeps hkeeps₃)
    · rw [tempPath_toPath hne]
      exact Disk.locate_of_keeps hkeeps₃ hwaiting
  · exact fun loc hloc => (hthere loc hloc).2
  · exact ⟨d₂, d', habsolute₂, hsecond⟩

/-! ## Batches again -/

theorem writeBeside_again (h : Replaceable d path loc) (hreliable : d.Reliable)
    (habsolute : isAbsolute d.base = true) (bytes : ByteArray) :
    ∃ d', writeBeside path bytes d = (.ok (), d') ∧ d.SameDirs d' ∧
      ∀ other, d'.tree.isFile other = true ↔ other = beside loc ∨ d.tree.isFile other = true := by
  obtain ⟨d₁, hparent, htree, hsame⟩ := ensureParent_of_parented h.parent hreliable
  have h₁ := h.of_sameDirs hsame
  have habsolute₁ := hsame.isAbsolute habsolute
  obtain ⟨d', hwrite⟩ := h₁.writeFile (hsame.reliable hreliable) bytes
  refine ⟨d', ?_, hsame.trans (Disk.sameDirs_of_writeFile habsolute₁ hwrite), ?_⟩
  · rw [writeBeside_eq]
    exact Work.bind_eq_ok.2 ⟨(), d₁, hparent, hwrite⟩
  · intro other
    rw [isFile_of_writeFile habsolute₁ h₁.waiting hwrite, htree]

theorem writeAllBeside_again (items : List (Location × ByteArray)) (done : List String)
    (hready : ∀ i ∈ items, Replaceable d (toPath i.1) i.1) (hreliable : d.Reliable)
    (habsolute : isAbsolute d.base = true) :
    ∃ d', writeAllBeside done (named items) d = (.ok (), d') ∧ d.SameDirs d' ∧
      ∀ other, (d.tree.isFile other = true ∨ ∃ i ∈ items, other = beside i.1) →
        d'.tree.isFile other = true := by
  induction items generalizing d done with
  | nil => exact ⟨d, rfl, .refl d, by simp⟩
  | cons i r ih =>
    obtain ⟨hhead, hrest⟩ := List.forall_mem_cons.1 hready
    obtain ⟨d₁, hwrite, hsame, hfiles⟩ := writeBeside_again hhead hreliable habsolute i.2
    obtain ⟨d', hwriteRest, hsame', hfiles'⟩ := ih (done ++ [tempPath (toPath i.1)])
      (fun j hj => (hrest j hj).of_sameDirs hsame) (hsame.reliable hreliable)
      (hsame.isAbsolute habsolute)
    refine ⟨d', ?_, hsame.trans hsame', ?_⟩
    · rw [named, List.map_cons, writeAllBeside]
      refine Work.bind_eq_ok.2 ⟨(), d₁, forPath_eq_ok.2 ?_, hwriteRest⟩
      exact Work.tryCatch_eq_ok.2 (.inl hwrite)
    · intro other hother
      refine hfiles' other ?_
      rw [hfiles]
      rcases hother with hfile | ⟨j, hj, heq⟩
      · exact .inl (.inr hfile)
      · rcases List.mem_cons.1 hj with rfl | hj
        · exact .inl (.inl heq)
        · exact .inr ⟨j, hj, heq⟩

/-- Files that have taken their places once take them again when all of them wait again. -/
theorem placeAll_again (places : List Location) (hplaces : ∀ loc ∈ places, loc.Plain ∧ loc ≠ [])
    (habsoluteOnce : isAbsolute e.base = true)
    (honce : placeAll (places.map toPath) e = (.ok u, e'))
    (hready : ∀ loc ∈ places, Replaceable d (toPath loc) loc) (hreliable : d.Reliable)
    (habsolute : isAbsolute d.base = true)
    (hwait : ∀ loc ∈ places, e.tree.isFile (beside loc) = true → d.tree.isFile (beside loc) = true) :
    ∃ d', placeAll (places.map toPath) d = (.ok (), d') ∧ d.SameDirs d' := by
  induction places generalizing d e with
  | nil => exact ⟨d, rfl, .refl d⟩
  | cons loc r ih =>
    obtain ⟨⟨hplain, hne⟩, hrest⟩ := List.forall_mem_cons.1 hplaces
    obtain ⟨hhead, hreadyRest⟩ := List.forall_mem_cons.1 hready
    rcases placeAll_cons_cases honce with ⟨e₁, hrenameOnce, honceRest⟩ | ⟨_, _, -, -, hfailed⟩
    · obtain ⟨content, hread, -, hbase, -, -⟩ := rename_spec habsoluteOnce hplain hne hrenameOnce
      have hfile := hwait loc List.mem_cons_self (FileTree.isFile_iff.2 ⟨content, hread⟩)
      obtain ⟨d₁, hrename, hsame⟩ := hhead.rename hreliable hfile
      have hwaitRest : ∀ other ∈ r, e₁.tree.isFile (beside other) = true →
          d₁.tree.isFile (beside other) = true := by
        intro other hother hstill
        rw [isFile_of_rename habsoluteOnce hplain hne hrenameOnce] at hstill
        rw [isFile_of_rename habsolute hplain hne hrename]
        exact hstill.imp_right (And.imp_right (hwait other (List.mem_cons_of_mem _ hother)))
      obtain ⟨d', hplaceRest, hsame'⟩ := ih hrest (hbase ▸ habsoluteOnce) honceRest
        (fun other hother => (hreadyRest other hother).of_sameDirs hsame) (hsame.reliable hreliable)
        (hsame.isAbsolute habsolute) hwaitRest
      refine ⟨d', ?_, hsame.trans hsame'⟩
      rw [List.map_cons, placeAll]
      refine Work.bind_eq_ok.2 ⟨(), d₁, forPath_eq_ok.2 ?_, hplaceRest⟩
      exact Work.tryCatch_eq_ok.2 (.inl hrename)
    · cases hfailed

/-- A batch that was written can be written again. -/
theorem writeArtifacts_again (hreliable : d.Reliable) (habsolute : isAbsolute d.base = true)
    (htop : top.Plain) (hdirectory : absolute d.base directory = toPath top)
    (hplaced : Placed top artifacts locs) (hdir : d.isDir (toPath top) = true)
    (hready : ∀ loc ∈ locs, Replaceable d (toPath loc) loc)
    (honce : ∃ e e' : Disk, isAbsolute e.base = true ∧ placeAll (locs.map toPath) e = (.ok (), e')) :
    ∃ d', writeArtifacts directory artifacts d = (.ok (locs.map toPath), d') ∧ d.SameDirs d' := by
  obtain ⟨e, e', habsoluteOnce, honce⟩ := honce
  have hensure := Disk.ensureDirectory_of_isDir hreliable (by simp [toPath]) hdir
  have hsame₁ : d.SameDirs (d.after d.tree) := .after d
  have hreadyItems : ∀ i ∈ items locs artifacts,
      Replaceable (d.after d.tree) (toPath i.1) i.1 :=
    fun i hi => (hready i.1 (hplaced.of_mem_items hi)).of_sameDirs hsame₁
  have hreliable₁ : (d.after d.tree).Reliable := hreliable
  obtain ⟨d₂, hfirst, hsame₂, hfiles⟩ :=
    writeAllBeside_again (items locs artifacts) [] hreadyItems hreliable₁ habsolute
  have hsame := hsame₁.trans hsame₂
  have hwait : ∀ loc ∈ locs, e.tree.isFile (beside loc) = true →
      d₂.tree.isFile (beside loc) = true := by
    intro loc hloc _
    obtain ⟨i, hi, rfl⟩ := hplaced.exists_item hloc
    exact hfiles _ (.inr ⟨i, hi, rfl⟩)
  obtain ⟨d', hsecond, hsame₃⟩ := placeAll_again locs hplaced.plain habsoluteOnce honce
    (fun loc hloc => (hready loc hloc).of_sameDirs hsame) (hsame.reliable hreliable)
    (hsame.isAbsolute habsolute) hwait
  exact ⟨d', (writeArtifacts_eq_ok htop hdirectory).2 ⟨locs, _, d₂, hplaced, rfl, hensure, hfirst,
    hsecond⟩, hsame.trans hsame₃⟩

/-! ## Single files -/

/-- The path of what waits goes on behind the path of its place. -/
theorem join_tempPath (base path : String) :
    join base (tempPath path) = join base path ++ ".sheaf-tmp" := by
  have hsame : isAbsolute (path ++ ".sheaf-tmp") = isAbsolute path := by
    unfold isAbsolute
    rw [String.toList_append]
    cases path.toList with
    | nil => rfl
    | cons c r => rfl
  unfold tempPath join
  rw [hsame]
  split
  · rfl
  · split
    · rfl
    · split
      · rw [String.append_assoc]
      · simp only [String.append_assoc]

/-- An absolute path goes on behind its last separator. -/
theorem exists_last {full : String} (h : isAbsolute full = true) :
    ∃ before last, '/' ∉ last.toList ∧ full = before ++ "/" ++ last := by
  obtain ⟨r, hr⟩ := isAbsolute_iff.1 h
  have hsplit : ∀ text : List Char, '/' ∈ text →
      ∃ before last, '/' ∉ last ∧ text = before ++ '/' :: last := by
    intro text
    induction text with
    | nil => simp
    | cons c r ih =>
      intro hmem
      by_cases hlater : '/' ∈ r
      · obtain ⟨before, last, hlast, rfl⟩ := ih hlater
        exact ⟨c :: before, last, hlast, rfl⟩
      · rcases List.mem_cons.1 hmem with rfl | hmem
        · exact ⟨[], r, hlater, rfl⟩
        · exact absurd hmem hlater
  obtain ⟨before, last, hlast, htext⟩ := hsplit full.toList (by simp [hr])
  refine ⟨String.ofList before, String.ofList last, by simpa using hlast, ?_⟩
  exact String.toList_inj.1 (by simp [htext])

/-- A path is followed to its last separator first. -/
theorem exists_walk_of_locate {before last : String} (habsolute : isAbsolute d.base = true)
    (hjoin : join d.base path = before ++ "/" ++ last) (h : d.locate path = .ok loc) :
    ∃ mid, Disk.walk d.tree [] ((segments before).map Component.ofSegment) = .ok mid ∧
      Disk.walk d.tree mid ((segments last).map Component.ofSegment) = .ok loc := by
  unfold Disk.locate at h
  split at h
  · cases h
  · rw [components_of_isAbsolute (isAbsolute_join habsolute path), hjoin, segments_append_slash,
      List.map_append] at h
    change Disk.walk d.tree [] (_ ++ _) = _ at h
    rw [Disk.walk_append] at h
    cases hmid : Disk.walk d.tree [] ((segments before).map Component.ofSegment) with
    | error e =>
      rw [hmid] at h
      cases h
    | ok mid =>
      rw [hmid] at h
      exact ⟨mid, rfl, h⟩

/-- A file waits in the directory of its place, however the path to it is written. -/
theorem beside_of_locate {waiting : Location} (habsolute : isAbsolute d.base = true)
    (hplace : d.locate path = .ok loc) (hwaiting : d.locate (tempPath path) = .ok waiting)
    (hne : loc ≠ []) (hdir : d.tree.isDir loc = false) : waiting = beside loc := by
  obtain ⟨before, last, hlast, hjoin⟩ := exists_last (isAbsolute_join habsolute path)
  have hjoin' : join d.base (tempPath path) = before ++ "/" ++ (last ++ ".sheaf-tmp") := by
    rw [join_tempPath, hjoin, String.append_assoc]
  have hname : IsName (last ++ ".sheaf-tmp") := isName_waiting hlast
  -- both paths come to the same directory, and from there go on differently
  obtain ⟨mid, hmid, hwalk⟩ := exists_walk_of_locate habsolute hjoin hplace
  obtain ⟨mid', hmid', hwalk'⟩ := exists_walk_of_locate habsolute hjoin' hwaiting
  obtain rfl : mid = mid' := Except.ok.inj (hmid.symm.trans hmid')
  rw [segments_of_isName hname, List.map_singleton, Component.ofSegment, if_neg hname.2.2.1,
    Disk.walk_cons_name] at hwalk'
  obtain ⟨hmidDir, -, hend⟩ := hwalk'
  obtain rfl : mid ++ [last ++ ".sheaf-tmp"] = waiting := Except.ok.inj hend
  by_cases hup : last = ".."
  · -- going up comes to a directory
    subst hup
    rw [show segments ".." = [".."] by decide, List.map_singleton, Component.ofSegment, if_pos rfl,
      Disk.walk_cons_up] at hwalk
    obtain rfl : mid.dropLast = loc := Except.ok.inj hwalk.2
    have habove : Location.Above mid.dropLast mid := by
      refine ⟨List.dropLast_prefix mid, ?_⟩
      intro heq
      have hlength := congrArg List.length heq
      rw [List.length_dropLast] at hlength
      have hnil : mid = [] := List.length_eq_zero_iff.1 (by omega)
      exact hne (by rw [hnil]; rfl)
    have hdirs := Disk.dirs_of_walk (fun above habove => .inl (List.prefix_nil.1 habove.1)) hmid
    have hthere := (hdirs _ habove).resolve_left hne
    rw [hdir] at hthere
    cases hthere
  · by_cases hidle : last = "" ∨ last = "."
    · -- so does a path that ends with a separator or a point
      have hnone : segments last = [] := by
        rcases hidle with rfl | rfl
        · decide
        · decide
      rw [hnone, List.map_nil] at hwalk
      obtain rfl : mid = loc := Except.ok.inj hwalk
      simp [hne, hdir] at hmidDir
    · rw [not_or] at hidle
      have hlastName : IsName last := ⟨hidle.1, hidle.2, hup, hlast⟩
      rw [segments_of_isName hlastName, List.map_singleton, Component.ofSegment, if_neg hup,
        Disk.walk_cons_name] at hwalk
      obtain rfl : mid ++ [last] = loc := Except.ok.inj hwalk.2.2
      rw [beside_append]

/-- A single file is written once its directory is there. What waits is removed when it cannot be. -/
theorem writeDurably_eq (path : String) (bytes : ByteArray) : writeDurably path bytes =
    (forPath (parentText path) (ensureParent path) >>= fun _ =>
      forPath path (tryCatch (settle path bytes) fun e => do
        Disk.quietly (Disk.removeFile (tempPath path))
        throw e)) := by
  unfold writeDurably ensureParent
  cases parent? path with
  | none => rfl
  | some directory => rfl

theorem writeDurably_eq_ok : writeDurably path bytes d = (.ok u, d') ↔
    ∃ d₁, ensureParent path d = (.ok (), d₁) ∧ settle path bytes d₁ = (.ok u, d') := by
  rw [writeDurably_eq, Work.bind_eq_ok]
  constructor
  · rintro ⟨v, d₁, hmade, hput⟩
    refine ⟨d₁, forPath_eq_ok.1 hmade, ?_⟩
    rcases Work.tryCatch_eq_ok.1 (forPath_eq_ok.1 hput) with hdone | ⟨e, t, -, hthrown⟩
    · exact hdone
    · obtain ⟨w, t', -, hnever⟩ := Work.bind_eq_ok.1 hthrown
      cases hnever
  · rintro ⟨d₁, hmade, hdone⟩
    exact ⟨(), d₁, forPath_eq_ok.2 hmade, forPath_eq_ok.2 (Work.tryCatch_eq_ok.2 (.inl hdone))⟩

/-- A file that has been settled is at its place and no longer where it waited. No directory is gone,
and all else is as it was. -/
theorem settle_spec (habsolute : isAbsolute d.base = true) (h : settle path bytes d = (.ok u, d')) :
    d.Keeps d' ∧ ofPath d.base path ≠ [] ∧ d'.locate path = .ok (ofPath d.base path) ∧
      d'.locate (tempPath path) = .ok (beside (ofPath d.base path)) ∧
      ∀ other, d'.tree.find? other = if other = ofPath d.base path then some (.file bytes)
        else if other = beside (ofPath d.base path) then none else d.tree.find? other := by
  obtain ⟨d₁, d₂, hwrite, hrename, hlast⟩ := settle_ok h
  -- it is written where it waits
  obtain ⟨waiting, hwaiting, -, -, -, -, hfind⟩ := Disk.writeFile_ok habsolute hwrite
  have hkeeps₁ := (Disk.sameDirs_of_writeFile habsolute hwrite).keeps
  have hkeeps₂ : d.Keeps (d₁.after d₁.tree) := hkeeps₁.trans (Disk.SameDirs.after d₁).keeps
  have habsolute₂ := hkeeps₂.isAbsolute habsolute
  -- from there it takes its place
  obtain ⟨old, loc, content, hold, hplace, hread, hne, hfree, hmoved⟩ := Disk.rename_ok hrename
  obtain rfl : old = waiting :=
    Except.ok.inj (hold.symm.trans (Disk.locate_of_keeps hkeeps₂ hwaiting))
  obtain rfl := beside_of_locate habsolute₂ hplace hold hne hfree
  obtain rfl : loc = ofPath d.base path :=
    (Disk.locate_eq habsolute₂ hplace).trans (congrArg (ofPath · path) hkeeps₂.base)
  have hcontent : content = bytes := by
    have hthere := FileTree.read?_eq_some_iff.1 hread
    rw [show (d₁.after d₁.tree).tree = d₁.tree from rfl, hfind, if_pos rfl] at hthere
    cases hthere
    rfl
  obtain ⟨hkeeps₃, -⟩ :=
    Disk.keeps_of_rename hold (fun _ => (above_beside_iff hne).1) hplace hrename
  -- seeing to the directory changes nothing any more
  have hkeeps₄ : d₂.Keeps d' := by
    rcases hlast with rfl | rfl
    · exact .refl _
    · exact (Disk.SameDirs.after d₂).keeps
  have htree : d'.tree = d₂.tree := by
    rcases hlast with rfl | rfl
    · rfl
    · rfl
  refine ⟨(hkeeps₂.trans hkeeps₃).trans hkeeps₄, hne, ?_, ?_, ?_⟩
  · exact Disk.locate_of_keeps (hkeeps₃.trans hkeeps₄) hplace
  · exact Disk.locate_of_keeps (hkeeps₃.trans hkeeps₄) hold
  · intro other
    rw [htree, hmoved, ← hcontent]
    simp only [Disk.after, Disk.find?_moved, hfind]
    by_cases hother : other = beside (ofPath d.base path)
    · simp [hother]
    · simp [hother]

/-- A single file that is written keeps all directories, and is there. -/
theorem way_of_writeDurably (habsolute : isAbsolute d.base = true)
    (h : writeDurably path bytes d = (.ok u, d')) :
    d.Keeps d' ∧ Way d' path (ofPath d.base path) ∧ d'.tree.isFile (ofPath d.base path) = true := by
  obtain ⟨d₁, hparent, hsettle⟩ := writeDurably_eq_ok.1 h
  obtain ⟨hkeeps, hparented⟩ := parented_of_ensureParent habsolute hparent
  obtain ⟨hkeeps₁, hne, hplace, hwaiting, hfind⟩ :=
    settle_spec (hkeeps.isAbsolute habsolute) hsettle
  rw [hkeeps.base] at hne hplace hwaiting hfind
  refine ⟨hkeeps.trans hkeeps₁, ?_, ?_⟩
  · exact ⟨fun parent heq => (hparented parent heq).imp_right (Disk.isDir_of_keeps hkeeps₁), hplace,
      hwaiting, hne⟩
  · exact FileTree.isFile_iff.2 ⟨bytes, FileTree.read?_eq_some_iff.2 (by rw [hfind, if_pos rfl])⟩

/-- A single file that was written can be written again. -/
theorem writeDurably_again (h : Replaceable d path loc) (hreliable : d.Reliable)
    (habsolute : isAbsolute d.base = true) (bytes : ByteArray) :
    ∃ d', writeDurably path bytes d = (.ok (), d') := by
  obtain ⟨d₁, hparent, -, hsame⟩ := ensureParent_of_parented h.parent hreliable
  have h₁ := h.of_sameDirs hsame
  have habsolute₁ := hsame.isAbsolute habsolute
  obtain ⟨d₂, hwrite⟩ := h₁.writeFile (hsame.reliable hreliable) bytes
  have hsame₂ := hsame.trans (Disk.sameDirs_of_writeFile habsolute₁ hwrite)
  have hreliable₂ := hsame₂.reliable hreliable
  have hsync : Disk.sync (tempPath path) d₂ = (.ok (), d₂.after d₂.tree) :=
    Disk.step_eq (hreliable₂ d₂.steps) (h.of_sameDirs hsame₂).waiting rfl
  have hsame₃ : d.SameDirs (d₂.after d₂.tree) := hsame₂.trans (.after d₂)
  have hfile : (d₂.after d₂.tree).tree.isFile (beside loc) = true :=
    (isFile_of_writeFile habsolute₁ h₁.waiting hwrite _).2 (.inl rfl)
  obtain ⟨d₃, hrename, -⟩ := (h.of_sameDirs hsame₃).rename (hsame₃.reliable hreliable) hfile
  obtain ⟨d₄, hsettle⟩ := exists_settle hwrite hsync hrename
  exact ⟨d₄, writeDurably_eq_ok.2 ⟨d₁, hparent, hsettle⟩⟩

end Output

end Bindery
