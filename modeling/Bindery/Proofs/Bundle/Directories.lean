import Bindery.Proofs.Bundle.Progress

/-!
# Keeping directories

Work that is done keeps all directories, so a path that led somewhere on the way leads there in the
end. Writing a file where its directory is there does not make any either.

* `FileTree.Keeps`, `Disk.locate_of_keeps` : keeping directories, and with them where paths lead.
* `FileTree.SameDirs` : having the same directories.
* `Disk.ensureDirectory_ok`, `Disk.ensureDirectory_of_isDir` : directories that are ensured are there,
  and ensuring those that are there changes nothing.
* `Disk.sameDirs_of_writeFile`, `Disk.sameDirs_of_rename` : files that are written or moved.
-/

namespace Bindery

open Path Location

/-! ## Trees -/

namespace FileTree

variable {t t' t'' : FileTree} {loc : Location}

/-- What was a directory still is one. -/
def Keeps (t t' : FileTree) : Prop :=
  ∀ loc : Location, loc ≠ [] → t.isDir loc = true → t'.isDir loc = true

namespace Keeps

theorem refl (t : FileTree) : t.Keeps t := fun _ _ => id

theorem trans (h : t.Keeps t') (h' : t'.Keeps t'') : t.Keeps t'' :=
  fun loc hne hdir => h' loc hne (h loc hne hdir)

/-- Where a path could go on, it still can. -/
theorem isOpen (h : t.Keeps t') (hdir : loc = [] ∨ t.isDir loc = true) :
    loc = [] ∨ t'.isDir loc = true := by
  by_cases hne : loc = []
  · exact .inl hne
  · exact .inr (h loc hne (hdir.resolve_left hne))

/-- Nothing is lost when directories are made. -/
theorem of_grows {dirs : Location → Prop} (h : t.Grows (fun _ => False) dirs t') : t.Keeps t' := by
  intro loc _ hdir
  have hfound : ∀ other n, t.find? other = some n → t'.find? other = some n :=
    fun other n => h.found id
  obtain ⟨hread, hmade⟩ := isDir_iff.1 hdir
  refine isDir_iff.2 ⟨(h.read?_eq id).trans hread, ?_⟩
  rcases hmade with hmade | ⟨below, n, hbelow, habove⟩
  · exact .inl (hfound loc _ hmade)
  · exact .inr ⟨below, n, hfound below n hbelow, habove⟩

/-- A file takes no directory away where none was, and neither does the one that waited for its
place in the same directory. -/
theorem of_find? {bytes : ByteArray} (old : Location) (hdir : t.isDir loc = false)
    (hold : old = loc ∨ (∃ bytes, t.read? old = some bytes) ∧
      ∀ above : Location, above.Above old → above.Above loc)
    (hfind : ∀ other, t'.find? other = if other = loc then some (.file bytes)
      else if other = old then none else t.find? other) : t.Keeps t' := by
  intro other _ hother
  obtain ⟨hread, hmade⟩ := isDir_iff.1 hother
  have hloc : other ≠ loc := by
    rintro rfl
    rw [hdir] at hother
    cases hother
  have hne : other ≠ old := by
    rcases hold with rfl | ⟨⟨content, hcontent⟩, -⟩
    · exact hloc
    · rintro rfl
      rw [hread] at hcontent
      cases hcontent
  have hsame : t'.find? other = t.find? other := by rw [hfind, if_neg hloc, if_neg hne]
  refine isDir_iff.2 ⟨by rw [read?_eq, hsame, ← read?_eq, hread], ?_⟩
  rcases hmade with hmade | ⟨below, n, hbelow, habove⟩
  · exact .inl (hsame.trans hmade)
  · -- what lay below is still there, or the file lies below in its stead
    by_cases hplace : other.Above loc
    · exact .inr ⟨loc, .file bytes, by rw [hfind, if_pos rfl], hplace⟩
    · have hbelowLoc : below ≠ loc := fun heq => hplace (heq ▸ habove)
      have hbelowOld : below ≠ old := by
        rcases hold with rfl | ⟨-, hway⟩
        · exact hbelowLoc
        · exact fun heq => hplace (hway other (heq ▸ habove))
      exact .inr ⟨below, n, by rw [hfind, if_neg hbelowLoc, if_neg hbelowOld, hbelow], habove⟩

end Keeps

/-- No directory is at a location, nor would be if a file that is there were taken away. -/
def Vacant (t : FileTree) (loc : Location) : Prop := (t.isMadeDir loc || t.hasBelow loc) = false

instance : Decidable (t.Vacant loc) := inferInstanceAs (Decidable (_ = false))

theorem vacant_iff : t.Vacant loc ↔
    t.find? loc ≠ some .dir ∧ ∀ below n, t.find? below = some n → ¬loc.Above below := by
  have hmade : t.isMadeDir loc = false ↔ t.find? loc ≠ some .dir := by
    unfold isMadeDir
    split
    · next h => simp [h]
    · next h => simpa using h
  rw [Vacant, Bool.or_eq_false_iff, hmade, ← Bool.not_eq_true, hasBelow_iff]
  simp only [not_exists, not_and]

theorem Vacant.isDir_eq_false (h : t.Vacant loc) : t.isDir loc = false := by
  unfold isDir
  rw [show (t.isMadeDir loc || t.hasBelow loc) = false from h, Bool.and_false]

/-- Where all directories are known, no other location has one. -/
theorem Within.vacant {dirs : Location → Prop} (h : t.Within dirs) (hloc : ¬dirs loc) :
    t.Vacant loc := by
  refine vacant_iff.2 ⟨fun hdir => hloc (h.made loc hdir), ?_⟩
  exact fun below n hn habove => hloc (h.above below n hn loc habove)

/-- Two trees have the same directories, and would have them if a file were taken away. -/
structure SameDirs (t t' : FileTree) : Prop where
  isDir : ∀ loc : Location, loc ≠ [] → t'.isDir loc = t.isDir loc
  vacant : ∀ loc : Location, loc ≠ [] → t.Vacant loc → t'.Vacant loc

namespace SameDirs

theorem refl (t : FileTree) : t.SameDirs t := ⟨fun _ _ => rfl, fun _ _ => id⟩

theorem trans (h : t.SameDirs t') (h' : t'.SameDirs t'') : t.SameDirs t'' where
  isDir loc hne := (h'.isDir loc hne).trans (h.isDir loc hne)
  vacant loc hne hvacant := h'.vacant loc hne (h.vacant loc hne hvacant)

theorem keeps (h : t.SameDirs t') : t.Keeps t' := fun loc hne hdir => (h.isDir loc hne).trans hdir

/-- A file whose directory is there makes none, and neither does moving it there from where it
waited, as long as nothing lies below that place. -/
theorem of_find? {bytes : ByteArray} (old : Location)
    (hleads : ∀ above : Location, above.Above loc → above = [] ∨ t.isDir above = true)
    (hdir : t.isDir loc = false)
    (hold : old = loc ∨ ((∃ bytes, t.read? old = some bytes) ∧
      ∀ above : Location, above.Above old → above.Above loc) ∧ t.Vacant old)
    (hfind : ∀ other, t'.find? other = if other = loc then some (.file bytes)
      else if other = old then none else t.find? other) : t.SameDirs t' := by
  have hkeeps : t.Keeps t' := .of_find? old hdir (hold.imp_right And.left) hfind
  -- what lies below a location lay there before, or there was a directory
  have hbelow : ∀ other : Location, other ≠ [] → ∀ below n, t'.find? below = some n →
      other.Above below → t.isDir other = true ∨ t.find? below = some n := by
    intro other hne below n hn habove
    by_cases hplace : below = loc
    · exact .inl ((hleads other (hplace ▸ habove)).resolve_left hne)
    · rw [hfind, if_neg hplace] at hn
      split at hn
      · cases hn
      · exact .inr hn
  have hmade : ∀ other, t'.find? other = some .dir → t.find? other = some .dir := by
    intro other hn
    rw [hfind] at hn
    split at hn
    · cases hn
    · split at hn
      · cases hn
      · exact hn
  have hvacant : ∀ other : Location, other ≠ [] → t.Vacant other → t'.Vacant other := by
    intro other hne hfree
    obtain ⟨hnone, hclear⟩ := vacant_iff.1 hfree
    refine vacant_iff.2 ⟨fun hn => hnone (hmade other hn), ?_⟩
    intro below n hn habove
    rcases hbelow other hne below n hn habove with hthere | hn
    · rw [hfree.isDir_eq_false] at hthere
      cases hthere
    · exact hclear below n hn habove
  refine ⟨?_, hvacant⟩
  intro other hne
  refine Bool.eq_iff_iff.2 ⟨?_, hkeeps other hne⟩
  intro hother
  obtain ⟨hread, hthere⟩ := isDir_iff.1 hother
  have hplace : other ≠ loc := by
    rintro rfl
    rw [read?_eq, hfind, if_pos rfl] at hread
    cases hread
  have hgone : other ≠ old := by
    rcases hold with rfl | ⟨-, hfree⟩
    · exact hplace
    · rintro rfl
      rw [(hvacant other hne hfree).isDir_eq_false] at hother
      cases hother
  have hsame : t.read? other = none := by
    rw [read?_eq, hfind, if_neg hplace, if_neg hgone, ← read?_eq] at hread
    exact hread
  rcases hthere with hthere | ⟨below, n, hn, habove⟩
  · exact isDir_iff.2 ⟨hsame, .inl (hmade other hthere)⟩
  · rcases hbelow other hne below n hn habove with hbefore | hn
    · exact hbefore
    · exact isDir_iff.2 ⟨hsame, .inr ⟨below, n, hn, habove⟩⟩

end SameDirs

end FileTree

namespace Disk

variable {t t' : FileTree} {d d' d'' : Disk} {path : String} {loc from_ : Location}
  {cs r : List Component} {u : Unit}

theorem walk_cons_here : walk t from_ (.here :: r) = .ok loc ↔
    (from_ = [] ∨ t.isDir from_ = true) ∧ walk t from_ r = .ok loc := by
  by_cases hdir : from_ = [] ∨ t.isDir from_ = true
  · have hopen : (from_.isEmpty || t.isDir from_) = true := by simpa using hdir
    simp [walk, hopen, hdir]
  · have hshut : (from_.isEmpty || t.isDir from_) = false := by simpa using hdir
    simp [walk, hshut, hdir]

theorem walk_cons_up : walk t from_ (.up :: r) = .ok loc ↔
    (from_ = [] ∨ t.isDir from_ = true) ∧ walk t from_.dropLast r = .ok loc := by
  by_cases hdir : from_ = [] ∨ t.isDir from_ = true
  · have hopen : (from_.isEmpty || t.isDir from_) = true := by simpa using hdir
    simp [walk, hopen, hdir]
  · have hshut : (from_.isEmpty || t.isDir from_) = false := by simpa using hdir
    simp [walk, hshut, hdir]

theorem walk_of_keeps (hkeeps : t.Keeps t') (h : walk t from_ cs = .ok loc) :
    walk t' from_ cs = .ok loc := by
  induction cs generalizing from_ with
  | nil => exact h
  | cons c r ih =>
    cases c with
    | root => exact ih h
    | here =>
      obtain ⟨hdir, hrest⟩ := walk_cons_here.1 h
      exact walk_cons_here.2 ⟨hkeeps.isOpen hdir, ih hrest⟩
    | up =>
      obtain ⟨hdir, hrest⟩ := walk_cons_up.1 h
      exact walk_cons_up.2 ⟨hkeeps.isOpen hdir, ih hrest⟩
    | name name =>
      obtain ⟨hdir, hsize, hrest⟩ := walk_cons_name.1 h
      exact walk_cons_name.2 ⟨hkeeps.isOpen hdir, hsize, ih hrest⟩

theorem walk_append (t : FileTree) (from_ : Location) (cs more : List Component) :
    walk t from_ (cs ++ more) = (walk t from_ cs).bind fun mid => walk t mid more := by
  induction cs generalizing from_ with
  | nil => rfl
  | cons c r ih =>
    cases c with
    | root => exact ih []
    | here =>
      simp only [List.cons_append, walk]
      split
      · rfl
      · exact ih from_
    | up =>
      simp only [List.cons_append, walk]
      split
      · rfl
      · exact ih from_.dropLast
    | name name =>
      simp only [List.cons_append, walk]
      split
      · rfl
      · split
        · exact ih (from_ ++ [name])
        · rfl

/-- A disk is seen from where it was, and has the directories that it had. -/
structure Keeps (d d' : Disk) : Prop where
  base : d'.base = d.base
  tree : d.tree.Keeps d'.tree

namespace Keeps

theorem refl (d : Disk) : d.Keeps d := ⟨rfl, .refl _⟩

theorem trans (h : d.Keeps d') (h' : d'.Keeps d'') : d.Keeps d'' :=
  ⟨h'.base.trans h.base, h.tree.trans h'.tree⟩

theorem of_grows {dirs : Location → Prop} (h : d.Grows (fun _ => False) dirs d') : d.Keeps d' :=
  ⟨h.base, .of_grows h.tree⟩

theorem isAbsolute (h : d.Keeps d') (hbase : isAbsolute d.base = true) :
    Path.isAbsolute d'.base = true :=
  h.base ▸ hbase

end Keeps

/-- A path leads where it led as long as no directory is gone. -/
theorem locate_of_keeps (hkeeps : d.Keeps d') (h : d.locate path = .ok loc) :
    d'.locate path = .ok loc := by
  unfold locate at *
  rw [hkeeps.base]
  split at h
  · cases h
  · next hnul =>
    rw [if_neg hnul]
    exact walk_of_keeps hkeeps.tree h

theorem isDir_of_keeps (hkeeps : d.Keeps d') (h : d.isDir path = true) : d'.isDir path = true := by
  unfold isDir at h
  split at h
  · next loc hlocate =>
    refine (isDir_iff_of_locate (locate_of_keeps hkeeps hlocate)).2 (hkeeps.tree.isOpen ?_)
    simpa using h
  · cases h

/-- Following components passes through directories only. -/
theorem dirs_of_walk (hbefore : ∀ above : Location, above.Above from_ → above = [] ∨ t.isDir above = true)
    (h : walk t from_ cs = .ok loc) :
    ∀ above : Location, above.Above loc → above = [] ∨ t.isDir above = true := by
  induction cs generalizing from_ with
  | nil =>
    obtain rfl : from_ = loc := by simpa [walk] using h
    exact hbefore
  | cons c r ih =>
    cases c with
    | root =>
      refine ih ?_ h
      exact fun above habove => .inl (List.prefix_nil.1 habove.1)
    | here => exact ih hbefore (walk_cons_here.1 h).2
    | up =>
      refine ih ?_ (walk_cons_up.1 h).2
      intro above habove
      exact hbefore above (habove.trans_isPrefix (List.dropLast_prefix from_))
    | name name =>
      obtain ⟨hdir, -, hrest⟩ := walk_cons_name.1 h
      refine ih ?_ hrest
      intro above habove
      by_cases hsame : above = from_
      · exact hsame ▸ hdir
      · exact hbefore above ⟨above_append_singleton.1 habove, hsame⟩

theorem dirs_of_locate (h : d.locate path = .ok loc) :
    ∀ above : Location, above.Above loc → above = [] ∨ d.tree.isDir above = true := by
  unfold locate at h
  split at h
  · cases h
  · refine dirs_of_walk ?_ h
    exact fun above habove => .inl (List.prefix_nil.1 habove.1)

/-! ## Directories that are there -/

/-- A directory that was made is there. -/
theorem makeDirectory_ok (h : makeDirectory path d = (.ok u, d')) : d'.isDir path = true := by
  obtain ⟨loc, t, hlocate, hchange, rfl⟩ := step_ok h
  split at hchange
  · cases hchange
  · next hfree =>
    obtain rfl := Except.ok.inj hchange
    simp only [Bool.or_eq_true, List.isEmpty_iff, not_or, Bool.not_eq_true] at hfree
    have hnone := FileTree.find?_of_has hfree.2
    have hkeeps : d.Keeps (d.after (d.tree.put loc .dir)) :=
      ⟨rfl, .of_grows (FileTree.Grows.put_dir hnone)⟩
    refine (isDir_iff_of_locate (locate_of_keeps hkeeps hlocate)).2 (.inr ?_)
    exact FileTree.isDir_iff.2 ⟨by simp [after, FileTree.read?_eq], .inl (by simp [after])⟩

/-- Checking that a directory is there succeeds only if it is. -/
theorem isDir_of_check {e : DiskError}
    (h : (do if !(← get).isDir path then throw e : DiskM Unit) d = (.ok u, d')) :
    d'.isDir path = true := by
  obtain ⟨there, t, hget, hcheck⟩ := Work.bind_eq_ok.1 h
  cases hget
  split at hcheck
  · cases hcheck
  · next hdir =>
    cases hcheck
    simpa using hdir

/-- A directory that was ensured is there. -/
theorem ensureDirectory_ok (hne : path ≠ "") (h : ensureDirectory path d = (.ok u, d')) :
    d'.isDir path = true := by
  unfold ensureDirectory makeDirectories at h
  rw [if_neg hne] at h
  obtain ⟨made, d₁, hmade, hrest⟩ := Work.bind_eq_ok.1 h
  rcases Work.tryCatch_eq_ok.1 hmade with hfirst | ⟨e, t, hfirst, hcaught⟩
  · obtain ⟨v, d₂, hdone, hnone⟩ := Work.bind_eq_ok.1 hfirst
    cases hnone
    cases hrest
    exact makeDirectory_ok hdone
  · cases hcaught
    cases e with
    | missing =>
      -- a directory above was missing, and the path is tried once more
      simp only at hrest
      cases hparent : parent? path with
      | none =>
        rw [hparent] at hrest
        cases hrest
      | some parent =>
        rw [hparent] at hrest
        obtain ⟨v, d₂, -, hagain⟩ := Work.bind_eq_ok.1 hrest
        rcases Work.tryCatch_eq_ok.1 hagain with hdone | ⟨e', t', -, hcheck⟩
        · exact makeDirectory_ok hdone
        · exact isDir_of_check hcheck
    | _ => exact isDir_of_check hrest

/-- Ensuring a directory that is there changes nothing. -/
theorem ensureDirectory_of_isDir (hreliable : d.Reliable) (hne : path ≠ "")
    (hdir : d.isDir path = true) : ensureDirectory path d = (.ok (), d.after d.tree) := by
  have htaken : makeDirectory path d = (.error .taken, d.after d.tree) := by
    unfold isDir at hdir
    split at hdir
    · next loc hlocate =>
      have hthere : (loc.isEmpty || d.tree.has loc) = true := by
        simp only [Bool.or_eq_true, List.isEmpty_iff] at hdir
        rcases hdir with rfl | hdir
        · rfl
        · simp [FileTree.has, hdir]
      simp [makeDirectory, step, hreliable d.steps, hlocate, Except.bind, hthere, after]
    · cases hdir
  have hstill : (d.after d.tree).isDir path = true := hdir
  unfold ensureDirectory makeDirectories
  rw [if_neg hne, Work.bind_apply, Work.tryCatch_apply, Work.bind_apply, htaken]
  exact throw_unless_isDir hstill .taken

/-! ## The same directories -/

/-- A disk is seen from where it was, fails as it did, and has the same directories. -/
structure SameDirs (d d' : Disk) : Prop where
  base : d'.base = d.base
  faults : d'.faults = d.faults
  tree : d.tree.SameDirs d'.tree

namespace SameDirs

theorem refl (d : Disk) : d.SameDirs d := ⟨rfl, rfl, .refl _⟩

/-- A step that changes nothing. -/
theorem after (d : Disk) : d.SameDirs (d.after d.tree) := ⟨rfl, rfl, .refl _⟩

theorem trans (h : d.SameDirs d') (h' : d'.SameDirs d'') : d.SameDirs d'' :=
  ⟨h'.base.trans h.base, h'.faults.trans h.faults, h.tree.trans h'.tree⟩

theorem keeps (h : d.SameDirs d') : d.Keeps d' := ⟨h.base, h.tree.keeps⟩

theorem reliable (h : d.SameDirs d') (hreliable : d.Reliable) : d'.Reliable :=
  fun n => h.faults ▸ hreliable n

theorem isAbsolute (h : d.SameDirs d') (hbase : isAbsolute d.base = true) :
    Path.isAbsolute d'.base = true :=
  h.base ▸ hbase

end SameDirs

/-- A file that is written where its directory is there makes no directory and takes none away. -/
theorem sameDirs_of_find? {bytes : ByteArray}
    (hleads : ∀ above : Location, above.Above loc → above = [] ∨ t.isDir above = true)
    (hdir : t.isDir loc = false)
    (hfind : ∀ other, t'.find? other = if other = loc then some (.file bytes) else t.find? other) :
    t.SameDirs t' := by
  have hput : ∀ other, t'.find? other = if other = loc then some (.file bytes)
      else if other = loc then none else t.find? other := by
    intro other
    rw [hfind]
    split
    · rfl
    · rfl
  exact .of_find? loc hleads hdir (.inl rfl) hput

theorem sameDirs_of_writeFile {bytes : ByteArray} (habsolute : isAbsolute d.base = true)
    (h : writeFile path bytes d = (.ok u, d')) : d.SameDirs d' := by
  obtain ⟨loc, hlocate, -, hdir, hbase, hfaults, hfind⟩ := writeFile_ok habsolute h
  exact ⟨hbase, hfaults, sameDirs_of_find? (dirs_of_locate hlocate) hdir hfind⟩

/-- A file is written where its path leads, unless a directory is there. -/
theorem writeFile_of_leads (hreliable : d.Reliable) (hlocate : d.locate path = .ok loc)
    (hne : loc ≠ []) (hdir : d.tree.isDir loc = false) (bytes : ByteArray) :
    ∃ d', writeFile path bytes d = (.ok (), d') := by
  have hcreate : createFile path d = (.ok (), d.after (d.tree.put loc (.file ByteArray.empty))) :=
    step_eq (hreliable d.steps) hlocate (by simp [hne, hdir])
  have hkeeps : d.Keeps (d.after (d.tree.put loc (.file ByteArray.empty))) :=
    ⟨rfl, (sameDirs_of_find? (dirs_of_locate hlocate) hdir fun _ => FileTree.find?_put).keeps⟩
  have hfill : fillFile path bytes (d.after (d.tree.put loc (.file ByteArray.empty))) = (.ok (), _) :=
    fillFile_eq (hreliable (d.steps + 1)) (locate_of_keeps hkeeps hlocate)
  exact ⟨_, Work.bind_eq_ok.2 ⟨(), _, hcreate, hfill⟩⟩

theorem find?_moved (t : FileTree) (old loc : Location) (bytes : ByteArray) (other : Location) :
    ((t.erase old).put loc (.file bytes)).find? other = if other = loc then some (.file bytes)
      else if other = old then none else t.find? other := by
  rw [FileTree.find?_put, FileTree.find?_erase]

/-- What takes its place from the same directory takes no directory away. -/
theorem keeps_of_rename {source target : String} {old : Location} (hsource : d.locate source = .ok old)
    (hway : ∀ above : Location, above.Above old → above.Above loc) (htarget : d.locate target = .ok loc)
    (h : rename source target d = (.ok u, d')) : d.Keeps d' ∧ d'.tree.isFile loc = true := by
  obtain ⟨old', loc', content, hold, hplace, hread, -, hdir, rfl⟩ := rename_ok h
  obtain rfl : old = old' := Except.ok.inj (hsource.symm.trans hold)
  obtain rfl : loc = loc' := Except.ok.inj (htarget.symm.trans hplace)
  refine ⟨⟨rfl, .of_find? old hdir (.inr ⟨⟨content, hread⟩, hway⟩) (find?_moved _ _ _ _)⟩, ?_⟩
  simp [after, FileTree.isFile]

/-- A file that takes its place from another one in the same directory makes no directory, and takes
none away when nothing lay below it. -/
theorem sameDirs_of_rename {source target : String} {old : Location} (hsource : d.locate source = .ok old)
    (htarget : d.locate target = .ok loc)
    (hway : ∀ above : Location, above.Above old → above.Above loc) (hvacant : d.tree.Vacant old)
    (h : rename source target d = (.ok u, d')) : d.SameDirs d' := by
  obtain ⟨old', loc', content, hold, hplace, hread, -, hdir, rfl⟩ := rename_ok h
  obtain rfl : old = old' := Except.ok.inj (hsource.symm.trans hold)
  obtain rfl : loc = loc' := Except.ok.inj (htarget.symm.trans hplace)
  exact ⟨rfl, rfl, .of_find? old (dirs_of_locate htarget) hdir
    (.inr ⟨⟨⟨content, hread⟩, hway⟩, hvacant⟩) (find?_moved _ _ _ _)⟩

end Disk

end Bindery
