import Bindery.Bundle.Manifest
import Bindery.Proofs.Bundle.Overwrite

/-!
# Old or new

A single file is written where it waits and only then takes its place, so whichever step fails
there is either all of the new content or what was there before. A disk may fail at any step, in the
middle of a file as well; one that fails at every step from some number on shows what is there when
work is cut off.

* `Output.ofPath_tempPath_ne` : what waits is never at the place itself, however the path is
  written.
* `Output.settle_error`, `Output.Withdrawal` : what a write that fails leaves waiting, and how that
  is removed.
* `Output.Replaced`, `Output.Retained`, `Output.Spared` : the new content, the old one, all else.
* `Output.writeDurably_atomic` : one of the first two, and the third.
-/

namespace Bindery

open Path Location

/-! ## Where a file waits -/

namespace Location

/-- The names that a path means come from working off its components behind the root. -/
theorem reverse_ofPath {base : String} (hbase : isAbsolute base = true) (path : String) :
    (ofPath base path).reverse.map Component.name ++ [Component.root] =
      ((segments (join base path)).map Component.ofSegment).foldl Path.step [.root] := by
  have habsolute := isAbsolute_join hbase path
  obtain ⟨names, hnames⟩ := exists_names_foldl_step (segments (join base path)) []
  have hclean : cleanComponents (components (join base path)) =
      (names.map Component.name ++ [Component.root]).reverse := by
    rw [components_of_isAbsolute habsolute, cleanComponents]
    exact congrArg List.reverse hnames
  have hmeans : ofPath base path = names.reverse := by
    rw [ofPath, hclean, List.reverse_append, ← List.map_reverse, List.reverse_singleton,
      List.singleton_append, List.filterMap_cons, List.filterMap_map]
    exact List.filterMap_some
  rw [hmeans, List.reverse_reverse]
  exact hnames.symm

end Location

namespace Output

variable {d d' : Disk} {base path : String} {bytes : ByteArray} {u : Unit}

/-- What waits is never at the place itself. The path may end in a separator, a point or a way up;
then it waits below the directory that the path comes through. -/
theorem ofPath_tempPath_ne (hbase : isAbsolute base = true) (path : String) :
    ofPath base (tempPath path) ≠ ofPath base path := by
  obtain ⟨before, last, hlast, hjoin⟩ := exists_last (isAbsolute_join hbase path)
  have hjoin' : join base (tempPath path) = before ++ "/" ++ (last ++ ".sheaf-tmp") := by
    rw [join_tempPath, hjoin, String.append_assoc]
  have hname : IsName (last ++ ".sheaf-tmp") := isName_waiting hlast
  obtain ⟨names, hnames⟩ := exists_names_foldl_step (segments before) []
  rw [List.map_nil, List.nil_append] at hnames
  have hplace := reverse_ofPath hbase path
  have hwaiting := reverse_ofPath hbase (tempPath path)
  rw [hjoin, segments_append_slash, List.map_append, List.foldl_append, hnames] at hplace
  rw [hjoin', segments_append_slash, List.map_append, List.foldl_append, hnames,
    segments_of_isName hname, List.map_singleton, Component.ofSegment,
    if_neg hname.2.2.1] at hwaiting
  intro heq
  rw [heq, hplace] at hwaiting
  by_cases hup : last = ".."
  · -- the path goes up from where the file waits
    subst hup
    rw [show segments ".." = [".."] by decide] at hwaiting
    have hlength := congrArg List.length hwaiting
    cases names with
    | nil => simp [Component.ofSegment, Path.step] at hlength
    | cons name above => simp [Component.ofSegment, Path.step] at hlength
  · by_cases hidle : last = "" ∨ last = "."
    · -- the path ends where the file waits below
      have hnone : segments last = [] := by
        rcases hidle with rfl | rfl
        · decide
        · decide
      have hlength := congrArg List.length hwaiting
      simp [hnone, Path.step] at hlength
    · -- both are in one directory under different names
      rw [not_or] at hidle
      rw [segments_of_isName ⟨hidle.1, hidle.2, hup, hlast⟩] at hwaiting
      have hsame : last = last ++ ".sheaf-tmp" := by
        simpa [Component.ofSegment, hup, Path.step] using hwaiting
      have hsize := congrArg String.utf8ByteSize hsame
      simp at hsize

/-! ## Writes that fail -/

/-- Making the directory of a file works on no file. -/
theorem grows_ensureParent (habsolute : isAbsolute d.base = true) (path : String) :
    d.Grows (fun _ => False) (fun _ => True) (ensureParent path d).2 := by
  unfold ensureParent
  cases parent? path with
  | none => exact .refl d
  | some directory => exact Disk.confined_ensureDirectory habsolute directory d rfl

/-- A file that has not been settled may have been written where it waits, whole or in part. All
else is as it was. -/
theorem settle_error (habsolute : isAbsolute d.base = true) {e : DiskError}
    (h : settle path bytes d = (.error e, d')) : d'.base = d.base ∧ d'.faults = d.faults ∧
      (d'.tree = d.tree ∨ ∃ loc content, d.locate (tempPath path) = .ok loc ∧
        d.tree.isDir loc = false ∧
          ∀ other, d'.tree.find? other = if other = loc then some (.file content)
            else d.tree.find? other) := by
  rcases Work.bind_eq_error.1 h with hwrite | ⟨_, d₁, hwrite, hrest⟩
  · obtain ⟨hbase, hfaults, hsame | ⟨loc, content, hlocate, hdir, htree⟩⟩ :=
      Disk.writeFile_error habsolute hwrite
    · exact ⟨hbase, hfaults, .inl hsame⟩
    · refine ⟨hbase, hfaults, .inr ⟨loc, content, hlocate, hdir, ?_⟩⟩
      intro other
      rw [htree, FileTree.find?_put]
  · obtain ⟨loc, hlocate, -, hdir, hbase, hfaults, hfind⟩ := Disk.writeFile_ok habsolute hwrite
    -- neither step after that changes the tree when it fails, and the last one does not fail
    have hsame : d'.base = d₁.base ∧ d'.faults = d₁.faults ∧ d'.tree = d₁.tree := by
      rcases Work.bind_eq_error.1 hrest with hsync | ⟨_, d₂, hsync, hrest⟩
      · obtain ⟨rfl, -⟩ := Disk.step_error hsync
        exact ⟨rfl, rfl, rfl⟩
      · obtain rfl := Disk.sync_ok hsync
        rcases Work.bind_eq_error.1 hrest with hrename | ⟨_, d₃, -, hparent⟩
        · obtain rfl := Disk.rename_error hrename
          exact ⟨rfl, rfl, rfl⟩
        · obtain ⟨t, hdone, -⟩ := syncParent_ok path d₃
          rw [hdone] at hparent
          cases hparent
    obtain ⟨hbase', hfaults', htree⟩ := hsame
    refine ⟨hbase'.trans hbase, hfaults'.trans hfaults, .inr ⟨loc, bytes, hlocate, hdir, ?_⟩⟩
    intro other
    rw [htree, hfind]

/-- How a write fails: its directory cannot be made, or the file cannot be settled, and what waits
is removed last. -/
theorem writeDurably_error {e : BuildError} (h : writeDurably path bytes d = (.error e, d')) :
    (∃ cause, ensureParent path d = (.error cause, d')) ∨
      ∃ d₁ d₂ cause result, ensureParent path d = (.ok (), d₁) ∧
        settle path bytes d₁ = (.error cause, d₂) ∧
          Disk.removeFile (tempPath path) d₂ = (result, d') := by
  rw [writeDurably_eq] at h
  rcases Work.bind_eq_error.1 h with hmade | ⟨_, d₁, hmade, hput⟩
  · obtain ⟨cause, hmade, -⟩ := forPath_eq_error.1 hmade
    exact .inl ⟨cause, hmade⟩
  · obtain ⟨thrown, hput, -⟩ := forPath_eq_error.1 hput
    rw [Work.tryCatch_apply] at hput
    rcases hsettle : settle path bytes d₁ with ⟨result, d₂⟩
    rw [hsettle] at hput
    cases result with
    | ok u => cases hput
    | error cause =>
      simp only [Work.bind_apply, quietly_eq] at hput
      cases hput
      exact .inr ⟨d₁, d₂, thrown, (Disk.removeFile (tempPath path) d₂).1, forPath_eq_ok.1 hmade,
        hsettle, rfl⟩

/-- A file that is there can be removed, unless the disk fails. -/
theorem removeFile_of_isFile {loc : Location} (hlocate : d.locate path = .ok loc)
    (hfile : d.tree.isFile loc = true) :
    Disk.removeFile path d = (.ok (), d.after (d.tree.erase loc)) ∨
      Disk.removeFile path d = (.error .device, d.after d.tree) := by
  by_cases hfault : d.faults d.steps = true
  · exact .inr (by simp [Disk.removeFile, Disk.step, hfault, Disk.after])
  · rw [Bool.not_eq_true] at hfault
    exact .inl (Disk.removeFile_eq hfault hlocate hfile)

/-! ## What a write leaves -/

/-- A write that was done: its path leads to the new content, and nothing waits any more. -/
structure Replaced (path : String) (bytes : ByteArray) (d d' : Disk) : Prop where
  leads : d'.locate path = .ok (ofPath d.base path)
  holds : d'.tree.read? (ofPath d.base path) = some bytes
  gone : d'.tree.find? (ofPath d.base (tempPath path)) = none

/-- What becomes of the file that waits when a write fails: it is as it was before, because none was
made, or it is removed last of all, and then it is gone unless the disk fails at that very step. -/
def Withdrawal (path : String) (d d' : Disk) : Prop :=
  d'.tree.read? (ofPath d.base (tempPath path)) = d.tree.read? (ofPath d.base (tempPath path)) ∨
    ∃ before,
      (Disk.removeFile (tempPath path) before = (.ok (), d') ∧
        d'.tree.find? (ofPath d.base (tempPath path)) = none) ∨
      Disk.removeFile (tempPath path) before = (.error .device, d')

/-- A write that failed: what was found at its place is found there still, no file has come to be
there, and what waited was withdrawn. -/
structure Retained (path : String) (d d' : Disk) : Prop where
  kept : ∀ n, d.tree.find? (ofPath d.base path) = some n →
    d'.tree.find? (ofPath d.base path) = some n
  read?_eq : d'.tree.read? (ofPath d.base path) = d.tree.read? (ofPath d.base path)
  withdrawn : Withdrawal path d d'

/-- What a write never touches: the other files, and the directories. Only where a file was at the
name of what waits, a directory that was there for nothing else may be gone. -/
structure Spared (path : String) (d d' : Disk) : Prop where
  files : ∀ other, ¬AtPath d.base path other → d'.tree.read? other = d.tree.read? other
  dirs : d.tree.read? (ofPath d.base (tempPath path)) = none → d.tree.Keeps d'.tree

/-- A write that is done replaces what was there, and no directory is gone. -/
theorem replaced_of_ok (habsolute : isAbsolute d.base = true)
    (h : writeDurably path bytes d = (.ok u, d')) : Replaced path bytes d d' ∧ d.Keeps d' := by
  obtain ⟨d₁, hparent, hsettle⟩ := writeDurably_eq_ok.1 h
  obtain ⟨hkeeps, -⟩ := parented_of_ensureParent habsolute hparent
  have habsolute₁ := hkeeps.isAbsolute habsolute
  obtain ⟨hkeeps₁, hne, hplace, hwaiting, hfind⟩ := settle_spec habsolute₁ hsettle
  have hbeside := Disk.locate_eq (hkeeps₁.isAbsolute habsolute₁) hwaiting
  rw [hkeeps₁.base] at hbeside
  rw [hkeeps.base] at hne hplace hbeside hfind
  refine ⟨⟨hplace, ?_, ?_⟩, hkeeps.trans hkeeps₁⟩
  · rw [FileTree.read?_eq_some_iff, hfind, if_pos rfl]
  · rw [← hbeside, hfind, if_neg (beside_ne hne), if_pos rfl]

/-- Nothing is lost where all is found as before. -/
theorem keeps_of_find? {t t' : FileTree} (h : ∀ other, t'.find? other = t.find? other) :
    t.Keeps t' := by
  have hgrows : t.Grows (fun _ => False) (fun _ => False) t' :=
    ⟨fun other _ => .inl (h other), fun other hdir => .inl (by rwa [h] at hdir)⟩
  exact .of_grows hgrows

/-- What is left when a file was not settled and what waits was withdrawn: all else is as it was, and
no directory is gone unless a file was there before. -/
structure Withdrawn (path : String) (d d' : Disk) : Prop where
  others : ∀ other, other ≠ ofPath d.base (tempPath path) →
    d'.tree.find? other = d.tree.find? other
  waiting : Withdrawal path d d'
  dirs : d.tree.read? (ofPath d.base (tempPath path)) = none → d.tree.Keeps d'.tree

variable {d₁ d₂ : Disk} {result : Except DiskError Unit}

/-- Where nothing was written, there may still have been a file before. -/
theorem withdrawn_of_unwritten (habsolute : isAbsolute d₁.base = true) (hbase : d₂.base = d₁.base)
    (hsame : d₂.tree = d₁.tree) (hremove : Disk.removeFile (tempPath path) d₂ = (result, d')) :
    Withdrawn path d₁ d' := by
  cases result with
  | ok u =>
    obtain ⟨loc, t, hlocate, hchange, rfl⟩ := Disk.step_ok hremove
    obtain rfl : loc = ofPath d₁.base (tempPath path) :=
      (Disk.locate_eq (hbase ▸ habsolute) hlocate).trans (by rw [hbase])
    split at hchange
    · next hfile =>
      cases hchange
      refine ⟨?_, .inr ⟨d₂, .inl ⟨hremove, by simp [Disk.after]⟩⟩, ?_⟩
      · intro other hother
        simp [Disk.after, hother, hsame]
      · intro hnone
        rw [hsame, FileTree.isFile, hnone] at hfile
        cases hfile
    · cases hchange
  | error e =>
    obtain ⟨rfl, -⟩ := Disk.step_error hremove
    have htree : (d₂.after d₂.tree).tree = d₁.tree := hsame
    exact ⟨fun _ _ => by rw [htree], .inl (by rw [htree]), fun _ => htree ▸ .refl _⟩

/-- What was written can be removed, so it is gone unless the disk fails at that very step. -/
theorem withdrawn_of_written {content : ByteArray} (hbase : d₂.base = d₁.base)
    (hlocate : d₁.locate (tempPath path) = .ok (ofPath d₁.base (tempPath path)))
    (hdir : d₁.tree.isDir (ofPath d₁.base (tempPath path)) = false)
    (hfind : ∀ other, d₂.tree.find? other =
      if other = ofPath d₁.base (tempPath path) then some (.file content) else d₁.tree.find? other)
    (hremove : Disk.removeFile (tempPath path) d₂ = (result, d')) : Withdrawn path d₁ d' := by
  have hkeeps : d₁.Keeps d₂ :=
    ⟨hbase, (Disk.sameDirs_of_find? (Disk.dirs_of_locate hlocate) hdir hfind).keeps⟩
  have hthere : d₂.tree.isFile (ofPath d₁.base (tempPath path)) = true :=
    FileTree.isFile_iff.2 ⟨content, by rw [FileTree.read?_eq_some_iff, hfind, if_pos rfl]⟩
  rcases removeFile_of_isFile (Disk.locate_of_keeps hkeeps hlocate) hthere with hdone | hfailed
  · rw [hdone] at hremove
    cases hremove
    have hfound : ∀ other, (d₂.tree.erase (ofPath d₁.base (tempPath path))).find? other =
        if other = ofPath d₁.base (tempPath path) then none else d₁.tree.find? other := by
      intro other
      rw [FileTree.find?_erase, hfind]
      split
      · rfl
      · rfl
    refine ⟨?_, .inr ⟨d₂, .inl ⟨hdone, by simp [Disk.after]⟩⟩, ?_⟩
    · intro other hother
      exact (hfound other).trans (if_neg hother)
    · intro hnone
      have hvacant : d₁.tree.find? (ofPath d₁.base (tempPath path)) = none :=
        FileTree.find?_of_has (by simp [FileTree.has, FileTree.isFile, hnone, hdir])
      refine keeps_of_find? fun other => (hfound other).trans ?_
      split
      · next heq => rw [heq, hvacant]
      · rfl
  · rw [hfailed] at hremove
    cases hremove
    refine ⟨?_, .inr ⟨d₂, .inr hfailed⟩, fun _ => hkeeps.tree⟩
    intro other hother
    exact (hfind other).trans (if_neg hother)

/-- A file that was not settled is withdrawn, and all else is as it was. -/
theorem withdrawn_of_settle {cause : DiskError} (habsolute : isAbsolute d₁.base = true)
    (hsettle : settle path bytes d₁ = (.error cause, d₂))
    (hremove : Disk.removeFile (tempPath path) d₂ = (result, d')) : Withdrawn path d₁ d' := by
  obtain ⟨hbase, -, hsame | ⟨loc, content, hlocate, hdir, hfind⟩⟩ := settle_error habsolute hsettle
  · exact withdrawn_of_unwritten habsolute hbase hsame hremove
  · obtain rfl := Disk.locate_eq habsolute hlocate
    exact withdrawn_of_written hbase hlocate hdir hfind hremove

/-- A write that failed leaves what was there, and no directory is gone unless a file was at the
name of what waits. -/
theorem retained_of_error (habsolute : isAbsolute d.base = true) {e : BuildError}
    (h : writeDurably path bytes d = (.error e, d')) : Retained path d d' ∧
      (d.tree.read? (ofPath d.base (tempPath path)) = none → d.tree.Keeps d'.tree) := by
  have hmakes := grows_ensureParent habsolute path
  rcases writeDurably_error h with ⟨cause, hparent⟩ |
    ⟨d₁, d₂, cause, result, hparent, hsettle, hremove⟩
  · -- directories may have been made, and nothing else
    rw [hparent] at hmakes
    have hreads : ∀ loc, d'.tree.read? loc = d.tree.read? loc := fun loc => hmakes.tree.read?_eq id
    exact ⟨⟨fun n => hmakes.tree.found id, hreads _, .inl (hreads _)⟩,
      fun _ => .of_grows hmakes.tree⟩
  · rw [hparent] at hmakes
    obtain ⟨hothers, hwithdrawn, hdirs⟩ :=
      withdrawn_of_settle (hmakes.isAbsolute habsolute) hsettle hremove
    have hplace : ofPath d.base path ≠ ofPath d₁.base (tempPath path) := by
      rw [hmakes.base]
      exact (ofPath_tempPath_ne habsolute path).symm
    have hfound := hothers _ hplace
    have hwaiting : d₁.tree.read? (ofPath d.base (tempPath path)) =
        d.tree.read? (ofPath d.base (tempPath path)) := hmakes.tree.read?_eq id
    rw [Withdrawal, hmakes.base, hwaiting] at hwithdrawn
    rw [hmakes.base, hwaiting] at hdirs
    refine ⟨⟨?_, ?_, hwithdrawn⟩, ?_⟩
    · intro n hn
      rw [hfound]
      exact hmakes.tree.found id hn
    · rw [FileTree.read?_eq, hfound, ← FileTree.read?_eq, hmakes.tree.read?_eq id]
    · intro hnone
      exact (FileTree.Keeps.of_grows hmakes.tree).trans (hdirs hnone)

/-- Whichever steps fail, a write that is done has put all of the new content at its place and left
nothing waiting; one that fails has left what was there; and neither touches another file. So a
manifest is always the one before or the whole new one. -/
theorem writeDurably_atomic (d : Disk) (habsolute : isAbsolute d.base = true) (path : String)
    (bytes : ByteArray) :
    (∀ d', writeDurably path bytes d = (.ok (), d') → Replaced path bytes d d') ∧
      (∀ e d', writeDurably path bytes d = (.error e, d') → Retained path d d') ∧
      Spared path d (writeDurably path bytes d).2 ∧
      ∀ m : Manifest,
        (m.write path d).2.tree.read? (ofPath d.base path) = d.tree.read? (ofPath d.base path) ∨
          (m.write path d).2.tree.read? (ofPath d.base path) = some (m.text ++ "\n").toUTF8 := by
  refine ⟨fun d' h => (replaced_of_ok habsolute h).1,
    fun e d' h => (retained_of_error habsolute h).1, ⟨?_, ?_⟩, ?_⟩
  · intro other hother
    exact (confined_writeDurably_atPath habsolute path bytes d rfl).tree.read?_eq hother
  · intro hnone
    rcases hrun : writeDurably path bytes d with ⟨result, d'⟩
    cases result with
    | ok u => exact (replaced_of_ok habsolute hrun).2.tree
    | error e => exact (retained_of_error habsolute hrun).2 hnone
  · intro m
    rcases hrun : m.write path d with ⟨result, d'⟩
    cases result with
    | ok u => exact .inr (replaced_of_ok habsolute hrun).1.holds
    | error e => exact .inl (retained_of_error habsolute hrun).1.read?_eq

/-- A page with its manifest, on a disk that fails when the next manifest is half written. -/
def halfway : Disk :=
  { tree := ⟨[(["app", "out", "assets.json"], .file "old".toUTF8)]⟩
    base := "/app"
    faults := fun n => n = 2
    torn := fun _ => 1 }

/-- The old manifest stays, and the half of the new one is removed. -/
theorem writeDurably_atomic_halfway : isAbsolute halfway.base = true ∧
    ∃ e d', writeDurably "out/assets.json" "new".toUTF8 halfway = (.error e, d') ∧
      Retained "out/assets.json" halfway d' ∧
      d'.tree.read? ["app", "out", "assets.json"] = some "old".toUTF8 ∧
      d'.tree.find? ["app", "out", "assets.json.sheaf-tmp"] = none := by
  have hatomic := writeDurably_atomic halfway rfl "out/assets.json" "new".toUTF8
  have hcheck : (match writeDurably "out/assets.json" "new".toUTF8 halfway with
      | (.ok _, _) => none
      | (.error _, d') => some (d'.tree.read? ["app", "out", "assets.json"],
          d'.tree.has ["app", "out", "assets.json.sheaf-tmp"])) =
        some (some "old".toUTF8, false) := by
    decide +kernel
  rcases hrun : writeDurably "out/assets.json" "new".toUTF8 halfway with ⟨result, d'⟩
  rw [hrun] at hcheck
  cases result with
  | ok u => cases hcheck
  | error e =>
    obtain ⟨hold, hgone⟩ := Prod.mk.inj (Option.some.inj hcheck)
    exact ⟨rfl, e, d', rfl, hatomic.2.1 e d' hrun, hold, FileTree.find?_of_has hgone⟩

end Output

end Bindery
