import Mathlib.Data.List.Forall2
import Mathlib.Data.List.Zip
import Bindery.Proofs.Bundle.Output

/-!
# Batches are written all or nothing

Writing a batch makes the output directory, checks every name, and goes through the two passes. The
passes undo what they did, with one exception: a file that took its place stays there when a later
one cannot. So a batch is written all or nothing as long as that cannot happen, which is when no
place but the first one is a directory or comes to be one, and files do not get into each other's
way.

* `Output.writeArtifacts_eq_ok` : what a batch that is written has gone through.
* `Output.Course`, `Output.course` : how writing a batch goes.
* `Output.Fits` : batches whose files do not get into the way.
* `Output.allOrNothing_of_fits` : these are written all or nothing.
* `Output.not_allOrNothing_blocked` : others are not.
-/

namespace Bindery

namespace Output

open Path Location

variable {d d' : Disk} {directory : String} {artifacts : List Artifact} {top loc : Location}
  {locs : List Location}

/-! ## Names -/

/-- The files of a batch have these places below a directory. -/
def Placed (top : Location) (artifacts : List Artifact) (locs : List Location) : Prop :=
  List.Forall₂ (fun a loc => target? (toPath top) a.file = .ok (toPath loc) ∧ loc.Plain ∧
    top.Above loc) artifacts locs

/-- The files of a batch with their places. -/
def items (locs : List Location) (artifacts : List Artifact) : List (Location × ByteArray) :=
  locs.zip (artifacts.map (·.bytes))

theorem Placed.plain (h : Placed top artifacts locs) : ∀ loc ∈ locs, loc.Plain ∧ loc ≠ [] := by
  induction h with
  | nil => simp
  | cons hhead _ ih =>
    refine List.forall_mem_cons.2 ⟨⟨hhead.2.1, ?_⟩, ih⟩
    rintro rfl
    obtain ⟨hway, hne⟩ := hhead.2.2
    exact hne (List.prefix_nil.1 hway)

theorem Placed.above (h : Placed top artifacts locs) : ∀ loc ∈ locs, top.Above loc := by
  induction h with
  | nil => simp
  | cons hhead _ ih => exact List.forall_mem_cons.2 ⟨hhead.2.2, ih⟩

theorem Placed.map_fst_items (h : Placed top artifacts locs) :
    (items locs artifacts).map (·.1) = locs :=
  List.map_fst_zip (by rw [List.length_map]; exact Nat.le_of_eq h.length_eq.symm)

theorem Placed.of_mem_items (h : Placed top artifacts locs) {i : Location × ByteArray}
    (hi : i ∈ items locs artifacts) : i.1 ∈ locs :=
  h.map_fst_items ▸ List.mem_map_of_mem hi

theorem mem_items {a : Artifact} (h : (a, loc) ∈ artifacts.zip locs) :
    (loc, a.bytes) ∈ items locs artifacts := by
  rw [items, List.zip_map_right, ← List.zip_swap, List.map_map]
  exact List.mem_map.2 ⟨(a, loc), h, rfl⟩

theorem Placed.exists_place (h : Placed top artifacts locs) {a : Artifact} (ha : a ∈ artifacts) :
    ∃ loc, (a, loc) ∈ artifacts.zip locs := by
  induction h with
  | nil => cases ha
  | cons _ _ ih =>
    rcases List.mem_cons.1 ha with rfl | ha
    · exact ⟨_, List.mem_cons_self⟩
    · obtain ⟨loc, hmem⟩ := ih ha
      exact ⟨loc, List.mem_cons_of_mem _ hmem⟩

theorem Placed.exists_item (h : Placed top artifacts locs) (hloc : loc ∈ locs) :
    ∃ i ∈ items locs artifacts, i.1 = loc :=
  List.mem_map.1 (h.map_fst_items.symm ▸ hloc)

/-- The paths that the names of a batch stand for, or the refusal of one of them. -/
def targets (directory : String) (artifacts : List Artifact) : OutputM (List String) :=
  artifacts.mapM fun a => writeArtifacts.liftExcept (target? directory a.file)

/-- Names are checked without touching the disk. -/
theorem targets_cases (htop : top.Plain) (artifacts : List Artifact) (d : Disk) :
    (∃ e, targets (toPath top) artifacts d = (.error e, d)) ∨
      ∃ locs : List Location, targets (toPath top) artifacts d = (.ok (locs.map toPath), d) ∧
        Placed top artifacts locs := by
  unfold targets
  induction artifacts with
  | nil => exact .inr ⟨[], rfl, .nil⟩
  | cons a r ih =>
    rw [List.mapM_cons, Work.bind_apply]
    cases htarget : target? (toPath top) a.file with
    | error e => exact .inl ⟨e, rfl⟩
    | ok full =>
      obtain ⟨loc, hplain, hbelow, rfl⟩ := target?_spec htop htarget
      simp only [writeArtifacts.liftExcept]
      rw [Work.bind_apply]
      rcases ih with ⟨e, hrest⟩ | ⟨locs, hrest, hplaced⟩
      · exact .inl ⟨e, by rw [hrest]⟩
      · refine .inr ⟨loc :: locs, by rw [hrest]; rfl, .cons ⟨htarget, hplain, hbelow⟩ hplaced⟩

/-- Names that have places are all accepted. -/
theorem Placed.targets_eq (hplaced : Placed top artifacts locs) (d : Disk) :
    targets (toPath top) artifacts d = (.ok (locs.map toPath), d) := by
  unfold targets
  induction hplaced with
  | nil => rfl
  | cons hhead _ ih =>
    rw [List.mapM_cons]
    refine Work.bind_eq_ok.2 ⟨_, d, ?_, Work.bind_eq_ok.2 ⟨_, d, ih, rfl⟩⟩
    rw [hhead.1]
    rfl

/-- The files with their places are those that the passes go through. -/
theorem zip_bytes (locs : List Location) (artifacts : List Artifact) :
    (locs.map toPath).zip (artifacts.map (·.bytes)) = named (items locs artifacts) := by
  rw [named, items, List.zip_map_left]
  rfl

/-- A batch is written when it goes through all that writing a batch is. -/
theorem writeArtifacts_eq_ok (htop : top.Plain) (hdirectory : absolute d.base directory = toPath top)
    {paths : List String} : writeArtifacts directory artifacts d = (.ok paths, d') ↔
    ∃ locs d₁ d₂, Placed top artifacts locs ∧ paths = locs.map toPath ∧
      Disk.ensureDirectory (toPath top) d = (.ok (), d₁) ∧
      writeAllBeside [] (named (items locs artifacts)) d₁ = (.ok (), d₂) ∧
      placeAll (locs.map toPath) d₂ = (.ok (), d') := by
  unfold writeArtifacts
  constructor
  · intro h
    obtain ⟨there, t, hget, hrest⟩ := Work.bind_eq_ok.1 h
    cases hget
    rw [hdirectory] at hrest
    obtain ⟨u, d₁, hensure, hrest⟩ := Work.bind_eq_ok.1 hrest
    obtain ⟨paths', t, htargets, hrest⟩ := Work.bind_eq_ok.1 hrest
    obtain ⟨v, d₂, hfirst, hrest⟩ := Work.bind_eq_ok.1 hrest
    obtain ⟨w, d₃, hsecond, hdone⟩ := Work.bind_eq_ok.1 hrest
    cases hdone
    change targets (toPath top) artifacts d₁ = _ at htargets
    rcases targets_cases htop artifacts d₁ with ⟨e, hrefused⟩ | ⟨locs, hnamed, hplaced⟩
    · rw [hrefused] at htargets
      cases htargets
    · rw [hnamed] at htargets
      cases htargets
      rw [zip_bytes] at hfirst
      exact ⟨locs, d₁, d₂, hplaced, rfl, forPath_eq_ok.1 hensure, hfirst, hsecond⟩
  · rintro ⟨locs, d₁, d₂, hplaced, rfl, hensure, hfirst, hsecond⟩
    rw [← zip_bytes] at hfirst
    refine Work.bind_eq_ok.2 ⟨d, d, rfl, ?_⟩
    rw [hdirectory]
    refine Work.bind_eq_ok.2 ⟨(), d₁, forPath_eq_ok.2 hensure, ?_⟩
    refine Work.bind_eq_ok.2 ⟨locs.map toPath, d₁, hplaced.targets_eq d₁, ?_⟩
    exact Work.bind_eq_ok.2 ⟨(), d₂, hfirst, Work.bind_eq_ok.2 ⟨(), d', hsecond, rfl⟩⟩

/-! ## How writing goes -/

/-- How writing a batch goes. -/
inductive Course (artifacts : List Artifact) (top : Location) (d : Disk) :
    Except BuildError (List String) → Disk → Prop where
  /-- The directory cannot be made, or a name is refused. -/
  | refused (e : BuildError) (d₁ : Disk) (hmade : d.Grows (fun _ => False) (· <+: top) d₁) :
      Course artifacts top d (.error e) d₁
  /-- The first pass fails. -/
  | unwritten (locs : List Location) (e : BuildError) (d₁ d' : Disk)
      (hmade : d.Grows (fun _ => False) (· <+: top) d₁) (hplaced : Placed top artifacts locs)
      (hfirst : writeAllBeside [] (named (items locs artifacts)) d₁ = (.error e, d')) :
      Course artifacts top d (.error e) d'
  /-- The second pass fails. -/
  | unplaced (locs : List Location) (e : BuildError) (d₁ d₂ d' : Disk)
      (hmade : d.Grows (fun _ => False) (· <+: top) d₁) (hplaced : Placed top artifacts locs)
      (hfirst : writeAllBeside [] (named (items locs artifacts)) d₁ = (.ok (), d₂))
      (hsecond : placeAll (locs.map toPath) d₂ = (.error e, d')) :
      Course artifacts top d (.error e) d'
  /-- Both passes come to their end. -/
  | done (locs : List Location) (d₁ d₂ d' : Disk)
      (hmade : d.Grows (fun _ => False) (· <+: top) d₁) (hplaced : Placed top artifacts locs)
      (hfirst : writeAllBeside [] (named (items locs artifacts)) d₁ = (.ok (), d₂))
      (hsecond : placeAll (locs.map toPath) d₂ = (.ok (), d')) :
      Course artifacts top d (.ok (locs.map toPath)) d'

theorem course (habsolute : isAbsolute d.base = true) (htop : top.Plain)
    (hdirectory : absolute d.base directory = toPath top) (artifacts : List Artifact) :
    Course artifacts top d (writeArtifacts directory artifacts d).1
      (writeArtifacts directory artifacts d).2 := by
  have hmade := Disk.confined_ensureDirectory_toPath habsolute htop d rfl
  have hget : (MonadState.get : OutputM Disk) d = (.ok d, d) := rfl
  have htargets : (artifacts.mapM fun a => writeArtifacts.liftExcept (target? (toPath top) a.file)) =
      targets (toPath top) artifacts := rfl
  unfold writeArtifacts
  simp only [Work.bind_apply, hget, hdirectory, htargets]
  rcases hensure : forPath (toPath top) (Disk.ensureDirectory (toPath top)) d with ⟨result, d₁⟩
  have hd₁ : d₁ = (Disk.ensureDirectory (toPath top) d).2 := by
    cases result with
    | ok u => rw [forPath_eq_ok.1 hensure]
    | error e =>
      obtain ⟨e', hfailed, -⟩ := forPath_eq_error.1 hensure
      rw [hfailed]
  rw [← hd₁] at hmade
  cases result with
  | error e => exact .refused e d₁ hmade
  | ok u =>
    rcases targets_cases htop artifacts d₁ with ⟨e, htargets⟩ | ⟨locs, htargets, hplaced⟩
    · simp only [htargets]
      exact .refused e d₁ hmade
    · simp only [htargets, zip_bytes]
      rcases hfirst : writeAllBeside [] (named (items locs artifacts)) d₁ with ⟨result, d₂⟩
      cases result with
      | error e => exact .unwritten locs e d₁ d₂ hmade hplaced hfirst
      | ok u =>
        simp only
        rcases hsecond : placeAll (locs.map toPath) d₂ with ⟨result, d₃⟩
        cases result with
        | error e => exact .unplaced locs e d₁ d₂ d₃ hmade hplaced hfirst hsecond
        | ok u => exact .done locs d₁ d₂ d₃ hmade hplaced hfirst hsecond

/-- What the first pass comes to when it is done. -/
theorem Placed.first_pass {d₁ d₂ : Disk} (hplaced : Placed top artifacts locs)
    (habsolute : isAbsolute d.base = true) (hmade : d.Grows (fun _ => False) (· <+: top) d₁)
    (hfirst : writeAllBeside [] (named (items locs artifacts)) d₁ = (.ok (), d₂)) :
    d.Grows (fun other => ∃ loc ∈ locs, other = beside loc)
        (fun other => other <+: top ∨ ∃ loc ∈ locs, other.Above loc) d₂ ∧
      (∀ loc ∈ locs, Loose d loc → Loose d₂ loc) ∧
      (locs.Nodup → ∀ i ∈ items locs artifacts, d₂.tree.read? (beside i.1) = some i.2) := by
  obtain ⟨hgrows, hloose, hthere⟩ := writeAllBeside_ok _ _ (hmade.isAbsolute habsolute)
    (fun i hi => hplaced.plain i.1 (hplaced.of_mem_items hi)) hfirst
  rw [hplaced.map_fst_items] at hthere
  refine ⟨(hmade.mono ?_ ?_).trans (hgrows.mono ?_ ?_), ?_, hthere⟩
  · exact fun _ hnone => hnone.elim
  · exact fun _ hway => .inl hway
  · exact fun other ⟨i, hi, hother⟩ => ⟨i.1, hplaced.of_mem_items hi, hother⟩
  · exact fun other ⟨i, hi, hother⟩ => .inr ⟨i.1, hplaced.of_mem_items hi, hother⟩
  · intro loc hloc hbefore
    have hsame : ∀ other, d₁.tree.read? other = d.tree.read? other :=
      fun other => hmade.tree.read?_eq id
    exact hloose loc (hplaced.plain loc hloc).1 (hplaced.plain loc hloc).2
      (hbefore.of_fewer fun other bytes hread => by rwa [hsame] at hread)

/-- What a batch that was written comes to: every file is at its place, and no other files but what
was beside the places have changed. -/
theorem writeArtifacts_ok (habsolute : isAbsolute d.base = true) (htop : top.Plain)
    (hdirectory : absolute d.base directory = toPath top) {paths : List String}
    (h : writeArtifacts directory artifacts d = (.ok paths, d')) :
    ∃ locs, paths = locs.map toPath ∧ Placed top artifacts locs ∧
      ((∀ a ∈ locs, ∀ b ∈ locs, beside a ≠ b) →
        d.Grows (Touches locs) (fun other => other <+: top ∨ ∃ loc ∈ locs, other.Above loc) d' ∧
          (∀ i ∈ items locs artifacts, d'.tree.read? i.1 = some i.2) ∧
          ∀ loc ∈ locs, d'.tree.read? (beside loc) = none) := by
  have hcourse := course habsolute htop hdirectory artifacts
  rw [h] at hcourse
  cases hcourse with
  | done locs d₁ d₂ d' hmade hplaced hfirst hsecond =>
    refine ⟨locs, rfl, hplaced, ?_⟩
    intro hapart
    obtain ⟨hgrows, -, hthere⟩ := hplaced.first_pass habsolute hmade hfirst
    obtain ⟨hnodup, hgrows', hdone⟩ :=
      placeAll_ok locs (hgrows.isAbsolute habsolute) hplaced.plain hapart hsecond
    refine ⟨(hgrows.mono ?_ fun _ => id).trans (hgrows'.mono (fun _ => id) ?_), ?_, ?_⟩
    · exact fun other ⟨loc, hloc, hother⟩ => ⟨loc, hloc, .inr hother⟩
    · exact fun _ hnone => hnone.elim
    · intro i hi
      obtain ⟨-, content, hbefore, hafter⟩ := hdone i.1 (hplaced.of_mem_items hi)
      rw [hthere hnodup i hi] at hbefore
      rw [hafter, ← hbefore]
    · exact fun loc hloc => (hdone loc hloc).1

/-! ## All or nothing -/

/-- The places of a batch below an output directory; files without a place are left out. -/
def places (base directory : String) (artifacts : List Artifact) : List Location :=
  artifacts.filterMap fun a =>
    (target? (absolute base directory) a.file).toOption.map (Location.ofPath base)

theorem Placed.places_eq (h : Placed top artifacts locs) {base : String}
    (hdirectory : absolute base directory = toPath top) :
    places base directory artifacts = locs := by
  unfold places
  rw [hdirectory]
  induction h with
  | nil => rfl
  | cons hhead _ ih =>
    rw [List.filterMap_cons, hhead.1, ih]
    simp [Except.toOption, ofPath_toPath hhead.2.1]

/-- The files of a batch do not get into each other's way, nor do files and directories that are
there already. -/
structure Fits (t : FileTree) (places : List Location) : Prop where
  /-- No two files have the same place. -/
  distinct : places.Nodup
  /-- No file has its place where one waits beside its own. -/
  apart : ∀ a ∈ places, ∀ b ∈ places, beside a ≠ b
  /-- No file is there where one waits. -/
  free : ∀ a ∈ places, t.read? (beside a) = none
  /-- No place but the first one is a directory or on the way to another place. -/
  takeable : ∀ a ∈ places.tail, t.isDir a = false ∧ ∀ b ∈ places, ¬a.Above b

/-- What writing a batch has to come to. If it is done, every file is at its place, nothing is left
beside the places, and no other file has changed. If it is not, no file has changed at all. -/
def AllOrNothing (directory : String) (artifacts : List Artifact) (d d' : Disk) :
    Except BuildError (List String) → Prop
  | .ok paths =>
    List.Forall₂ (fun a path => target? (absolute d.base directory) a.file = .ok path ∧
      d'.tree.read? (Location.ofPath d.base path) = some a.bytes) artifacts paths ∧
    (∀ loc ∈ places d.base directory artifacts, d'.tree.read? (beside loc) = none) ∧
    ∀ loc, ¬Touches (places d.base directory artifacts) loc → d'.tree.read? loc = d.tree.read? loc
  | .error _ => ∀ loc, d'.tree.read? loc = d.tree.read? loc

/-- Nothing has changed when what is beside the places is gone and was not there before. -/
theorem read?_eq_of_gone {dirs : Location → Prop} (hfits : Fits d.tree locs)
    (hgrows : d.Grows (fun other => ∃ loc ∈ locs, other = beside loc) dirs d')
    (hgone : ∀ loc ∈ locs, d'.tree.read? (beside loc) = none) (loc : Location) :
    d'.tree.read? loc = d.tree.read? loc := by
  by_cases hbeside : ∃ place ∈ locs, loc = beside place
  · obtain ⟨place, hplace, rfl⟩ := hbeside
    rw [hgone place hplace, hfits.free place hplace]
  · exact hgrows.tree.read?_eq hbeside

/-- What was a place stays one: nothing that the first pass makes is in the way of the second one. -/
theorem Placed.isDir_eq_false (hplaced : Placed top artifacts locs)
    (hapart : ∀ a ∈ locs, ∀ b ∈ locs, beside a ≠ b)
    (hgrows : d.Grows (fun other => ∃ loc ∈ locs, other = beside loc)
      (fun other => other <+: top ∨ ∃ loc ∈ locs, other.Above loc) d')
    (hloc : loc ∈ locs) (hdir : d.tree.isDir loc = false) (hway : ∀ place ∈ locs, ¬loc.Above place) :
    d'.tree.isDir loc = false := by
  refine hgrows.tree.isDir_eq_false ?_ ?_ ?_ ?_ hdir
  · rintro _ above ⟨place, hplace, rfl⟩ habove
    exact .inr ⟨place, hplace, (above_beside_iff (hplaced.plain place hplace).2).1 habove⟩
  · rintro other above (hbelow | ⟨place, hplace, hbelow⟩) habove
    · exact .inl (habove.1.trans hbelow)
    · exact .inr ⟨place, hplace, habove.trans_isPrefix hbelow.1⟩
  · rintro ⟨place, hplace, heq⟩
    exact hapart place hplace loc hloc heq.symm
  · rintro (hway' | ⟨place, hplace, hbelow⟩)
    · obtain ⟨hbelow, hne⟩ := hplaced.above loc hloc
      exact hne (hbelow.eq_of_length_le hway'.length_le)
    · exact hway place hplace hbelow

/-- The places of a batch that was written stand beside its files, and have their bytes. -/
theorem Placed.forall₂_written (hplaced : Placed top artifacts locs)
    (hdirectory : absolute d.base directory = toPath top)
    (hthere : ∀ i ∈ items locs artifacts, d'.tree.read? i.1 = some i.2) :
    List.Forall₂ (fun a path => target? (absolute d.base directory) a.file = .ok path ∧
      d'.tree.read? (Location.ofPath d.base path) = some a.bytes) artifacts (locs.map toPath) := by
  rw [List.forall₂_map_right_iff, List.forall₂_iff_zip]
  refine ⟨hplaced.length_eq, ?_⟩
  intro a loc hmem
  obtain ⟨htarget, hplain, -⟩ := (List.forall₂_iff_zip.1 hplaced).2 hmem
  rw [hdirectory, ofPath_toPath hplain]
  exact ⟨htarget, hthere (loc, a.bytes) (mem_items hmem)⟩

/-- When the first pass of a batch that fits fails, no file has changed. -/
theorem read?_eq_of_unwritten (hreliable : d.Reliable) (habsolute : isAbsolute d.base = true)
    (hfits : Fits d.tree locs) {d₁ : Disk} {e : BuildError}
    (hmade : d.Grows (fun _ => False) (· <+: top) d₁) (hplaced : Placed top artifacts locs)
    (hfirst : writeAllBeside [] (named (items locs artifacts)) d₁ = (.error e, d'))
    (loc : Location) : d'.tree.read? loc = d.tree.read? loc := by
  have hfst : [] ++ (items locs artifacts).map (·.1) = locs := hplaced.map_fst_items
  have hfree : ∀ loc ∈ locs, d₁.tree.read? (beside loc) = none := fun loc hloc =>
    (hmade.tree.read?_eq id).trans (hfits.free loc hloc)
  have hloose : ∀ loc ∈ locs, Loose d₁ loc := by
    intro loc hloc bytes hread
    rw [hfree loc hloc] at hread
    cases hread
  have hpass := writeAllBeside_error (items locs artifacts) [] (hmade.reliable hreliable)
    (hmade.isAbsolute habsolute) (hfst.symm ▸ hplaced.plain) (hfst.symm ▸ hloose)
    (hplaced.map_fst_items.symm ▸ hfits.distinct)
    (fun i hi => hfree i.1 (hplaced.of_mem_items hi)) hfirst
  rw [hfst] at hpass
  obtain ⟨hgrows, hgone⟩ := hpass
  have hboth : d.Grows (fun other => ∃ loc ∈ locs, other = beside loc) (fun _ => True) d' :=
    (hmade.mono (fun _ hnone => hnone.elim) fun _ _ => trivial).trans
      (hgrows.mono (fun _ => id) fun _ _ => trivial)
  exact read?_eq_of_gone hfits hboth hgone loc

/-- When the second pass of a batch that fits fails, no file has changed. -/
theorem read?_eq_of_unplaced (hreliable : d.Reliable) (habsolute : isAbsolute d.base = true)
    (hfits : Fits d.tree locs) {d₁ d₂ : Disk} {e : BuildError}
    (hmade : d.Grows (fun _ => False) (· <+: top) d₁) (hplaced : Placed top artifacts locs)
    (hfirst : writeAllBeside [] (named (items locs artifacts)) d₁ = (.ok (), d₂))
    (hsecond : placeAll (locs.map toPath) d₂ = (.error e, d')) (loc : Location) :
    d'.tree.read? loc = d.tree.read? loc := by
  obtain ⟨hgrows, hloose, hthere⟩ := hplaced.first_pass habsolute hmade hfirst
  have hwaits : ∀ loc ∈ locs, Waits d₂ loc := by
    intro loc hloc
    obtain ⟨i, hi, rfl⟩ := hplaced.exists_item hloc
    refine ⟨⟨i.2, hthere hfits.distinct i hi⟩, hloose i.1 hloc ?_⟩
    intro bytes hread
    rw [hfits.free i.1 hloc] at hread
    cases hread
  have htakeable : ∀ loc ∈ locs.tail, d₂.tree.isDir loc = false := by
    intro loc htail
    obtain ⟨hdir, hway⟩ := hfits.takeable loc htail
    exact hplaced.isDir_eq_false hfits.apart hgrows (List.mem_of_mem_tail htail) hdir hway
  obtain ⟨hgrows', hgone⟩ := placeAll_error locs (hgrows.reliable hreliable)
    (hgrows.isAbsolute habsolute) hplaced.plain hfits.distinct hfits.apart hwaits htakeable hsecond
  have hboth : d.Grows (fun other => ∃ loc ∈ locs, other = beside loc) (fun _ => True) d' :=
    (hgrows.mono (fun _ => id) fun _ _ => trivial).trans
      (hgrows'.mono (fun _ => id) fun _ _ => trivial)
  exact read?_eq_of_gone hfits hboth hgone loc

/-- A batch that fits is written all or nothing. -/
theorem allOrNothing_of_fits (d : Disk) (hreliable : d.Reliable) (habsolute : isAbsolute d.base = true)
    (directory : String) (artifacts : List Artifact)
    (hfits : Fits d.tree (places d.base directory artifacts)) :
    AllOrNothing directory artifacts d (writeArtifacts directory artifacts d).2
      (writeArtifacts directory artifacts d).1 := by
  rcases hrun : writeArtifacts directory artifacts d with ⟨result, d'⟩
  obtain ⟨top, htop, hdirectory⟩ := absolute_eq habsolute directory
  have hcourse := course habsolute htop hdirectory artifacts
  rw [hrun] at hcourse
  cases result with
  | ok paths =>
    obtain ⟨locs, rfl, hplaced, hwritten⟩ := writeArtifacts_ok habsolute htop hdirectory hrun
    have hplaces := hplaced.places_eq hdirectory
    rw [hplaces] at hfits
    obtain ⟨hgrows, hthere, hgone⟩ := hwritten hfits.apart
    refine ⟨hplaced.forall₂_written hdirectory hthere, ?_, ?_⟩
    · rw [hplaces]
      exact hgone
    · rw [hplaces]
      exact fun loc hloc => hgrows.tree.read?_eq hloc
  | error e =>
    cases hcourse with
    | refused e d₁ hmade => exact fun loc => hmade.tree.read?_eq id
    | unwritten locs e d₁ d' hmade hplaced hfirst =>
      rw [hplaced.places_eq hdirectory] at hfits
      exact read?_eq_of_unwritten hreliable habsolute hfits hmade hplaced hfirst
    | unplaced locs e d₁ d₂ d' hmade hplaced hfirst hsecond =>
      rw [hplaced.places_eq hdirectory] at hfits
      exact read?_eq_of_unplaced hreliable habsolute hfits hmade hplaced hfirst hsecond

/-! ## A directory in the way -/

/-- A page that was built before, with a directory where a file of the next build belongs. -/
def blocked : Disk :=
  { tree := ⟨[(["app", "out", "a.js"], .file "old".toUTF8),
      (["app", "out", "b.js", "c.js"], .file "old".toUTF8)]⟩
    base := "/" }

/-- Files to write, by name. -/
def files (named : List (String × String)) : List Artifact :=
  named.map fun (file, text) =>
    { file, kind := .script, chunk := none, fingerprint := none, bytes := text.toUTF8 }

/-- The directory may be where the first file belongs. -/
theorem allOrNothing_directory_first :
    Fits blocked.tree (places blocked.base "/app/out" (files [("b.js", "new"), ("a.js", "new")])) ∧
      AllOrNothing "/app/out" (files [("b.js", "new"), ("a.js", "new")]) blocked
        (writeArtifacts "/app/out" (files [("b.js", "new"), ("a.js", "new")]) blocked).2
        (writeArtifacts "/app/out" (files [("b.js", "new"), ("a.js", "new")]) blocked).1 := by
  have hplaces : places blocked.base "/app/out" (files [("b.js", "new"), ("a.js", "new")]) =
      [["app", "out", "b.js"], ["app", "out", "a.js"]] := by decide
  have hfits : Fits blocked.tree
      (places blocked.base "/app/out" (files [("b.js", "new"), ("a.js", "new")])) := by
    rw [hplaces]
    constructor
    · decide
    · decide
    · decide
    · intro a ha
      rw [List.tail_cons, List.mem_singleton] at ha
      subst ha
      refine ⟨by decide, ?_⟩
      simp [Location.Above]
  refine ⟨hfits, ?_⟩
  generalize files [("b.js", "new"), ("a.js", "new")] = artifacts at hfits ⊢
  exact allOrNothing_of_fits blocked (fun _ => rfl) (by decide) "/app/out" artifacts hfits

/-- A file that took its place stays when a later one finds a directory. -/
theorem not_allOrNothing_blocked :
    ¬AllOrNothing "/app/out" (files [("a.js", "new"), ("b.js", "new")]) blocked
      (writeArtifacts "/app/out" (files [("a.js", "new"), ("b.js", "new")]) blocked).2
      (writeArtifacts "/app/out" (files [("a.js", "new"), ("b.js", "new")]) blocked).1 := by
  have hnew : (writeArtifacts "/app/out" (files [("a.js", "new"), ("b.js", "new")])
      blocked).2.tree.read? ["app", "out", "a.js"] = some "new".toUTF8 := by
    decide +kernel
  have hfailed : (writeArtifacts "/app/out" (files [("a.js", "new"), ("b.js", "new")])
      blocked).1.toOption = none := by
    decide +kernel
  have hold : blocked.tree.read? ["app", "out", "a.js"] ≠ some "new".toUTF8 := by decide +kernel
  generalize writeArtifacts "/app/out" (files [("a.js", "new"), ("b.js", "new")]) blocked = run
    at hnew hfailed ⊢
  obtain ⟨result, d'⟩ := run
  cases result with
  | error e =>
    intro hkept
    exact hold ((hkept ["app", "out", "a.js"]).symm.trans hnew)
  | ok paths => cases hfailed

end Output

end Bindery
