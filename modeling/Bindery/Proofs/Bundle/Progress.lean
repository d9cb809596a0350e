import Bindery.Proofs.Bundle.Batch

/-!
# Output that can be written

On a disk without faults work fails for a reason that lies in the tree, so it is done where there is
no such reason: directories are made where no file stands on the way, and a batch of files is
written where nothing is in its way.

* `Disk.ensureDirectory_of_passable` : directories that are made.
* `Output.writeArtifacts_of_free` : batches that are written.
-/

namespace Bindery

open Path Location

/-! ## Steps on the disk -/

namespace Disk

variable {t : FileTree} {d : Disk} {path : String} {loc : Location} {e : DiskError}

/-- Where no file stands on the way, following names fails only because a directory is missing. -/
theorem missing_of_walk {from_ : Location} {names : List String}
    (hsizes : ∀ name ∈ names, name.utf8ByteSize ≤ nameLimit)
    (hfree : ∀ before, before <+: names → before ≠ names → from_ ++ before ≠ [] →
      t.read? (from_ ++ before) = none)
    (h : walk t from_ (names.map .name) = .error e) : e = .missing := by
  induction names generalizing from_ with
  | nil => simp [walk] at h
  | cons name r ih =>
    have hhere : from_ = [] ∨ t.isFile from_ = false := by
      by_cases hroot : from_ = []
      · exact .inl hroot
      · have hread := hfree [] List.nil_prefix (by simp) (by simpa using hroot)
        rw [List.append_nil] at hread
        exact .inr (by simp [FileTree.isFile, hread])
    have hsize := hsizes name List.mem_cons_self
    simp only [List.map_cons, walk, hsize, if_true] at h
    by_cases hdir : (from_.isEmpty || t.isDir from_) = true
    · rw [hdir] at h
      simp only [Bool.not_true, Bool.false_eq_true, if_false] at h
      refine ih (fun other hother => hsizes other (List.mem_cons_of_mem _ hother)) ?_ h
      intro before hway hne hroot
      have hread := hfree (name :: before) (List.cons_prefix_cons.2 ⟨rfl, hway⟩)
        (fun heq => hne (List.cons.inj heq).2)
      rw [List.append_assoc, List.singleton_append] at hroot ⊢
      exact hread hroot
    · rw [Bool.not_eq_true] at hdir
      rw [hdir] at h
      simp only [Bool.not_false, if_true, Except.error.injEq] at h
      rcases hhere with rfl | hfile
      · simp at hdir
      · rw [hfile] at h
        exact h.symm

/-- Where no file stands on the way, a path leads there or a directory is missing. -/
theorem locate_cases (hplain : loc.Plain) (hstorable : Storable loc) (hopen : d.tree.Open loc) :
    d.locate (toPath loc) = .ok loc ∨ d.locate (toPath loc) = .error .missing := by
  have hwalk : d.locate (toPath loc) = walk d.tree [] (loc.map .name) := by
    have hnul : (toPath loc).toList.contains '\x00' = false := by simpa using hstorable.1
    rw [locate, hnul, join_of_isAbsolute (isAbsolute_toPath loc), components_toPath hplain]
    rfl
  rw [hwalk]
  cases hresult : walk d.tree [] (loc.map .name) with
  | ok other =>
    obtain ⟨hother, -, -⟩ := walk_names.1 hresult
    exact .inl (by rw [hother, List.nil_append])
  | error e =>
    have hmissing : e = .missing := by
      refine missing_of_walk hstorable.2 ?_ hresult
      intro before hway hne hroot
      rw [List.nil_append] at hroot ⊢
      exact hopen before hroot ⟨hway, hne⟩
    exact .inr (by rw [hmissing])

/-- A path leads to its location when the directory it lies in is there. -/
theorem locate_of_isDir {name : String} (hplain : Plain (loc ++ [name]))
    (hstorable : Storable (loc ++ [name])) (hpassable : d.tree.Passable loc)
    (hdir : loc = [] ∨ d.tree.isDir loc = true) :
    d.locate (toPath (loc ++ [name])) = .ok (loc ++ [name]) := by
  refine (locate_toPath_iff hplain).2 ⟨hstorable, ?_⟩
  intro above habove
  have hway := above_append_singleton.1 habove
  by_cases hroot : above = []
  · exact .inl hroot
  by_cases hsame : above = loc
  · exact hsame ▸ hdir
  · rcases hdir with rfl | hdir
    · exact absurd (List.prefix_nil.1 hway) hroot
    · exact .inr (FileTree.isDir_of_above hdir ⟨hway, hsame⟩ (hpassable above hroot hway))

theorem isDir_iff_of_locate (hlocate : d.locate path = .ok loc) :
    d.isDir path = true ↔ loc = [] ∨ d.tree.isDir loc = true := by
  simp [isDir, hlocate]

/-- Making a directory where its path leads. -/
theorem makeDirectory_of_locate (hreliable : d.Reliable) (hlocate : d.locate path = .ok loc)
    (hpassable : d.tree.Passable loc) :
    (∃ d', makeDirectory path d = (.ok (), d') ∧ d'.tree.isDir loc = true) ∨
      makeDirectory path d = (.error .taken, d.after d.tree) ∧
        (loc = [] ∨ d.tree.isDir loc = true) := by
  by_cases hthere : loc = [] ∨ d.tree.isDir loc = true
  · refine .inr ⟨?_, hthere⟩
    have htaken : (loc.isEmpty || d.tree.has loc) = true := by
      rcases hthere with rfl | hdir
      · rfl
      · simp [FileTree.has, hdir]
    simp [makeDirectory, step, hreliable d.steps, hlocate, Except.bind, htaken, after]
  · obtain ⟨hne, hdir⟩ := not_or.1 hthere
    rw [Bool.not_eq_true] at hdir
    have hfile : d.tree.isFile loc = false := by
      simp [FileTree.isFile, hpassable loc hne List.prefix_rfl]
    have hnew : (loc.isEmpty || d.tree.has loc) = false := by
      simp [FileTree.has, hfile, hdir, hne]
    refine .inl ⟨d.after (d.tree.put loc .dir), step_eq (hreliable d.steps) hlocate ?_, ?_⟩
    · rw [hnew]
      rfl
    · exact FileTree.isDir_iff.2 ⟨by simp [after, FileTree.read?_eq], .inl (by simp [after])⟩

/-- Nothing is thrown over a directory that is there. -/
theorem throw_unless_isDir (h : d.isDir path = true) (e : DiskError) :
    (do if !(← get).isDir path then throw e : DiskM Unit) d = (.ok (), d) := by
  have hget : (MonadState.get : DiskM Disk) d = (.ok d, d) := rfl
  rw [Work.bind_apply, hget]
  simp only [h]
  rfl

/-- A directory that cannot be made because it is there already is fine. -/
theorem makeDirectory_or_isDir (hreliable : d.Reliable) (hlocate : d.locate path = .ok loc)
    (hpassable : d.tree.Passable loc) :
    ∃ d', (tryCatch (makeDirectory path) fun e => do
        if !(← get).isDir path then throw e : DiskM Unit) d = (.ok (), d') ∧
      (loc = [] ∨ d'.tree.isDir loc = true) := by
  rw [Work.tryCatch_apply]
  rcases makeDirectory_of_locate hreliable hlocate hpassable with ⟨d', hmade, hdir⟩ | ⟨htaken, hdir⟩
  · rw [hmade]
    exact ⟨d', rfl, .inr hdir⟩
  · rw [htaken]
    have hthere : (d.after d.tree).isDir path = true := (isDir_iff_of_locate hlocate).2 hdir
    exact ⟨d.after d.tree, throw_unless_isDir hthere .taken, hdir⟩

/-- Directories are made where no file stands on the way. -/
theorem makeDirectories_of_passable (fuel : Nat) :
    ∀ (d : Disk) (loc : Location), d.Reliable → isAbsolute d.base = true → loc.Plain → Storable loc →
      d.tree.Passable loc → loc.length < fuel →
        ∃ d', makeDirectories fuel (toPath loc) d = (.ok (), d') ∧
          (loc = [] ∨ d'.tree.isDir loc = true) := by
  induction fuel with
  | zero => exact fun _ _ _ _ _ _ _ hfuel => absurd hfuel (Nat.not_lt_zero _)
  | succ fuel ih =>
    intro d loc hreliable habsolute hplain hstorable hpassable hfuel
    have hpath : toPath loc ≠ "" := by simp [toPath]
    have hopen : d.tree.Open loc := fun above hne habove => hpassable above hne habove.1
    unfold makeDirectories
    rw [if_neg hpath, Work.bind_apply, Work.tryCatch_apply, Work.bind_apply]
    rcases locate_cases hplain hstorable hopen with hlocate | hlocate
    · rcases makeDirectory_of_locate hreliable hlocate hpassable with ⟨d', hmade, hdir⟩ | ⟨htaken, hdir⟩
      · rw [hmade]
        exact ⟨d', rfl, .inr hdir⟩
      · rw [htaken]
        have hthere : (d.after d.tree).isDir (toPath loc) = true :=
          (isDir_iff_of_locate hlocate).2 hdir
        exact ⟨d.after d.tree, throw_unless_isDir hthere .taken, hdir⟩
    · have hmissing : makeDirectory (toPath loc) d = (.error .missing, d.after d.tree) := by
        simp [makeDirectory, step, hreliable d.steps, hlocate, Except.bind, after]
      rw [hmissing]
      rcases List.eq_nil_or_concat' loc with rfl | ⟨parent, name, rfl⟩
      · -- the root is there
        have hroot : d.locate (toPath []) = .ok [] :=
          (locate_toPath_iff hplain).2 ⟨hstorable, fun above habove => .inl (List.prefix_nil.1 habove.1)⟩
        rw [hroot] at hlocate
        cases hlocate
      · have hway : parent <+: parent ++ [name] := List.prefix_append parent [name]
        have hparent : parent? (toPath (parent ++ [name])) = some (toPath parent) :=
          parent?_toPath hplain
        have hsmaller : parent.length < fuel := by
          rw [List.length_append, List.length_singleton] at hfuel
          omega
        obtain ⟨d₁, hmade, hdir⟩ := ih (d.after d.tree) parent hreliable habsolute
          (hplain.of_isPrefix hway) (Storable.of_isPrefix hstorable hway) (hpassable.of_isPrefix hway) hsmaller
        have hgrows : (d.after d.tree).Grows (fun _ => False) (fun _ => True) d₁ := by
          have hconfined : Confined d.base (fun _ => False) (fun _ => True)
              (makeDirectories fuel (toPath parent)) :=
            confined_makeDirectories habsolute (fun _ => True) (fun _ _ _ _ => trivial)
              (fun _ _ => trivial) fuel (toPath parent) trivial
          have hafter := hconfined (d.after d.tree) rfl
          rwa [hmade] at hafter
        have hpassable₁ : d₁.tree.Passable (parent ++ [name]) := by
          intro above hne hway
          rw [hgrows.tree.read?_eq id]
          exact hpassable above hne hway
        have hlocate₁ := locate_of_isDir hplain hstorable (hpassable₁.of_isPrefix hway) hdir
        obtain ⟨d₂, hdone, hdir₂⟩ :=
          makeDirectory_or_isDir (hgrows.reliable hreliable) hlocate₁ hpassable₁
        refine ⟨d₂, ?_, hdir₂⟩
        simp only [hparent]
        exact Work.bind_eq_ok.2 ⟨(), d₁, hmade, hdone⟩

/-- A directory is made, with those above it, where no file stands on the way. -/
theorem ensureDirectory_of_passable (hreliable : d.Reliable) (habsolute : isAbsolute d.base = true)
    (hplain : loc.Plain) (hstorable : Storable loc) (hpassable : d.tree.Passable loc) :
    ∃ d', ensureDirectory (toPath loc) d = (.ok (), d') ∧ (loc = [] ∨ d'.tree.isDir loc = true) := by
  have hfuel : loc.length < (components (toPath loc)).length + 1 := by
    rw [components_toPath hplain, List.length_cons, List.length_map]
    omega
  exact makeDirectories_of_passable _ d loc hreliable habsolute hplain hstorable hpassable hfuel

/-- A file is written where its path leads, unless a directory is there. -/
theorem writeFile_of_locate (hreliable : d.Reliable) (hplain : loc.Plain) (hne : loc ≠ [])
    (hlocate : d.locate (toPath loc) = .ok loc) (hdir : d.tree.isDir loc = false)
    (bytes : ByteArray) : ∃ d', writeFile (toPath loc) bytes d = (.ok (), d') := by
  have hstorable : Storable loc := ((locate_toPath_iff hplain).1 hlocate).1
  have hopen := open_of_locate hplain hlocate
  have hcreate : createFile (toPath loc) d =
      (.ok (), d.after (d.tree.put loc (.file ByteArray.empty))) :=
    step_eq (hreliable d.steps) hlocate (by simp [hne, hdir])
  have hlocate₁ : (d.after (d.tree.put loc (.file ByteArray.empty))).locate (toPath loc) = .ok loc := by
    have hempty : (d.after (d.tree.put loc (.file ByteArray.empty))).tree.read? loc =
        some ByteArray.empty := by simp [after]
    refine locate_of_open hplain hstorable ?_ hempty
    intro above hroot habove
    simpa [after, habove.2] using hopen above hroot habove
  obtain ⟨d', hfill⟩ : ∃ d', fillFile (toPath loc) bytes
      (d.after (d.tree.put loc (.file ByteArray.empty))) = (.ok (), d') :=
    ⟨_, fillFile_eq (hreliable (d.steps + 1)) hlocate₁⟩
  exact ⟨d', Work.bind_eq_ok.2 ⟨(), _, hcreate, hfill⟩⟩

end Disk

/-! ## Files -/

namespace Output

variable {d d' : Disk} {directory : String} {artifacts : List Artifact} {top loc : Location}
  {locs : List Location}

/-- Beside a place a file is written unless a directory is there, or a file is on the way. -/
theorem writeBeside_of_open (hreliable : d.Reliable) (habsolute : isAbsolute d.base = true)
    (hplain : loc.Plain) (hne : loc ≠ []) (hstorable : Disk.Storable (beside loc))
    (hopen : d.tree.Open loc) (hdir : d.tree.isDir (beside loc) = false) (bytes : ByteArray) :
    ∃ d', writeBeside (toPath loc) bytes d = (.ok (), d') := by
  have hbeside := plain_beside hplain hne
  obtain ⟨parent, name, rfl⟩ := (List.eq_nil_or_concat' loc).resolve_left hne
  rw [beside_append] at hbeside hstorable hdir
  have hway : parent <+: parent ++ [name ++ ".sheaf-tmp"] := List.prefix_append parent _
  have hparent := hbeside.of_isPrefix hway
  have hpassable := FileTree.open_append_iff.1 hopen
  obtain ⟨d₁, hmade, hthere⟩ := Disk.ensureDirectory_of_passable hreliable habsolute hparent
    (Disk.Storable.of_isPrefix hstorable hway) hpassable
  have hgrows : d.Grows (fun _ => False) (· <+: parent) d₁ := by
    have hconfined := Disk.confined_ensureDirectory_toPath habsolute hparent d rfl
    rwa [hmade] at hconfined
  have hpassable₁ : d₁.tree.Passable parent := by
    intro above hroot habove
    rw [hgrows.tree.read?_eq id]
    exact hpassable above hroot habove
  have hdir₁ : d₁.tree.isDir (parent ++ [name ++ ".sheaf-tmp"]) = false := by
    refine hgrows.tree.isDir_eq_false (fun _ _ hnone => hnone.elim)
      (fun _ _ hbelow habove => habove.1.trans hbelow) id ?_ hdir
    -- the directories that are made are above the file
    intro hbelow
    have hlength := hbelow.length_le
    rw [List.length_append, List.length_singleton] at hlength
    omega
  have hlocate := Disk.locate_of_isDir hbeside hstorable hpassable₁ hthere
  obtain ⟨d₂, hwritten⟩ := Disk.writeFile_of_locate (hgrows.reliable hreliable) hbeside
    (by simp) hlocate hdir₁ bytes
  refine ⟨d₂, ?_⟩
  rw [writeBeside_append hplain, beside_append]
  exact Work.bind_eq_ok.2 ⟨(), d₁, hmade, hwritten⟩

/-- Nothing is in the way of files with these places. -/
structure Free (t : FileTree) (places : List Location) : Prop where
  /-- No two files have the same place. -/
  distinct : places.Nodup
  /-- Their names are not too long. -/
  storable : ∀ a ∈ places, Disk.Storable (beside a)
  /-- No file stands on the way. -/
  reachable : ∀ a ∈ places, t.Open a
  /-- No directory is at a place or where a file waits for it. -/
  takeable : ∀ a ∈ places, t.isDir a = false ∧ t.isDir (beside a) = false
  /-- No file has its place where another one waits, and none is on the way to another place. -/
  apart : ∀ a ∈ places, ∀ b ∈ places, beside a ≠ b ∧ ¬a.Above b ∧ ¬(beside a).Above b

/-- A place for a file in a known directory. -/
structure Shelved (dirs : Location → Prop) (loc : Location) : Prop where
  plain : loc.Plain
  ne_nil : loc ≠ []
  storable : Disk.Storable (beside loc)
  above : ∀ above : Location, above.Above loc → dirs above
  place : ¬dirs loc
  waiting : ¬dirs (beside loc)

/-- Nothing is in the way of a file in a known directory. -/
theorem Shelved.free {t : FileTree} {dirs : Location → Prop} (hloc : Shelved dirs loc)
    (h : t.Within dirs) : Free t [loc] := by
  have hnoDir : ∀ other, ¬dirs other → t.isDir other = false := by
    intro other hother
    by_contra hdir
    rw [Bool.not_eq_false] at hdir
    exact hother (h.of_isDir hdir)
  constructor
  · simp
  · intro a ha
    obtain rfl := List.mem_singleton.1 ha
    exact hloc.storable
  · intro a ha above hroot hway
    obtain rfl := List.mem_singleton.1 ha
    exact h.free above (hloc.above above hway) hroot
  · intro a ha
    obtain rfl := List.mem_singleton.1 ha
    exact ⟨hnoDir a hloc.place, hnoDir (beside a) hloc.waiting⟩
  · intro a ha b hb
    obtain rfl := List.mem_singleton.1 ha
    obtain rfl := List.mem_singleton.1 hb
    refine ⟨beside_ne hloc.ne_nil, fun hway => hway.2 rfl, ?_⟩
    exact fun hway => hway.2 (hway.1.eq_of_length (length_beside hloc.ne_nil))

/-- Writing a file in a known directory leaves all directories known. -/
theorem Shelved.within {dirs : Location → Prop} (hloc : Shelved dirs loc) (h : d.tree.Within dirs)
    (hdirs : ∀ other above : Location, dirs other → above.Above other → dirs above)
    (hgrows : d.Grows (Touches [loc]) dirs d') : d'.tree.Within dirs := by
  refine h.of_grows hgrows.tree ?_ hdirs ?_
  · intro other above hother habove
    rcases touches_singleton_iff.1 hother with rfl | rfl
    · exact hloc.above above habove
    · exact hloc.above above ((above_beside_iff hloc.ne_nil).1 habove)
  · intro other hother
    rcases touches_singleton_iff.1 hother with rfl | rfl
    · exact hloc.place
    · exact hloc.waiting

/-- Making the directory that the places are in leaves nothing in the way of the files. -/
theorem Free.of_directory (hfree : Free d.tree locs) (hplaces : ∀ a ∈ locs, a ≠ [] ∧ top.Above a)
    (hmade : d.Grows (fun _ => False) (· <+: top) d') : Free d'.tree locs := by
  have hkept : ∀ other : Location, top.Above other → d.tree.isDir other = false →
      d'.tree.isDir other = false := by
    intro other hbelow hdir
    refine hmade.tree.isDir_eq_false (fun _ _ hnone => hnone.elim)
      (fun _ _ hway habove => habove.1.trans hway) id ?_ hdir
    exact fun hway => hbelow.2 (hbelow.1.eq_of_length_le hway.length_le)
  refine ⟨hfree.distinct, hfree.storable, ?_, ?_, hfree.apart⟩
  · intro a ha above hroot habove
    rw [hmade.tree.read?_eq id]
    exact hfree.reachable a ha above hroot habove
  · intro a ha
    obtain ⟨hne, hbelow⟩ := hplaces a ha
    obtain ⟨hdir, hdirBeside⟩ := hfree.takeable a ha
    exact ⟨hkept a hbelow hdir, hkept (beside a) ((above_beside_iff hne).2 hbelow) hdirBeside⟩

/-- Writing one file beside its place leaves nothing in the way of the others. -/
theorem Free.of_writeBeside {bytes : ByteArray} (hfree : Free d.tree (loc :: locs))
    (habsolute : isAbsolute d.base = true) (hplain : loc.Plain) (hne : loc ≠ [])
    (hplaces : ∀ a ∈ locs, a.Plain ∧ a ≠ [])
    (h : writeBeside (toPath loc) bytes d = (.ok (), d')) : Free d'.tree locs := by
  obtain ⟨hgrows, -⟩ := writeBeside_keeps habsolute hplain hne h
  have hnew := (List.nodup_cons.1 hfree.distinct).1
  have hmem : ∀ a ∈ locs, a ∈ loc :: locs := fun a ha => List.mem_cons_of_mem loc ha
  have hfiles : ∀ other above : Location, other = beside loc → above.Above other → above.Above loc := by
    rintro _ above rfl habove
    exact (above_beside_iff hne).1 habove
  have hkept : ∀ other : Location, other ≠ beside loc → ¬other.Above loc →
      d.tree.isDir other = false → d'.tree.isDir other = false :=
    fun other hother hway hdir => hgrows.tree.isDir_eq_false hfiles
      (fun _ _ hbelow habove => habove.trans_isPrefix hbelow.1) hother hway hdir
  constructor
  · exact (List.nodup_cons.1 hfree.distinct).2
  · exact fun a ha => hfree.storable a (hmem a ha)
  · intro a ha above hroot habove
    have hother : above ≠ beside loc := by
      rintro rfl
      exact (hfree.apart loc List.mem_cons_self a (hmem a ha)).2.2 habove
    rw [hgrows.tree.read?_eq hother]
    exact hfree.reachable a (hmem a ha) above hroot habove
  · intro a ha
    obtain ⟨hdir, hdirBeside⟩ := hfree.takeable a (hmem a ha)
    obtain ⟨-, hway, hwayBeside⟩ := hfree.apart a (hmem a ha) loc List.mem_cons_self
    have hplace : a ≠ beside loc := fun heq =>
      (hfree.apart loc List.mem_cons_self a (hmem a ha)).1 heq.symm
    have hbeside : beside a ≠ beside loc := by
      intro heq
      exact hnew (beside_injective (hplaces a ha).2 hne heq ▸ ha)
    exact ⟨hkept a hplace hway hdir, hkept (beside a) hbeside hwayBeside hdirBeside⟩
  · exact fun a ha b hb => hfree.apart a (hmem a ha) b (hmem b hb)

/-- All files are written beside their places when nothing is in the way. -/
theorem writeAllBeside_of_free (items : List (Location × ByteArray)) :
    ∀ (done : List String) (d : Disk), d.Reliable → isAbsolute d.base = true →
      (∀ i ∈ items, i.1.Plain ∧ i.1 ≠ []) → Free d.tree (items.map (·.1)) →
        ∃ d', writeAllBeside done (named items) d = (.ok (), d') := by
  induction items with
  | nil => exact fun _ d _ _ _ _ => ⟨d, rfl⟩
  | cons i r ih =>
    intro done d hreliable habsolute hplaces hfree
    obtain ⟨⟨hplain, hne⟩, hrest⟩ := List.forall_mem_cons.1 hplaces
    have hplacesRest : ∀ a ∈ r.map (·.1), Location.Plain a ∧ a ≠ [] := by
      intro a ha
      obtain ⟨j, hj, rfl⟩ := List.mem_map.1 ha
      exact hrest j hj
    obtain ⟨d₁, hwritten⟩ := writeBeside_of_open hreliable habsolute hplain hne
      (hfree.storable i.1 List.mem_cons_self) (hfree.reachable i.1 List.mem_cons_self)
      (hfree.takeable i.1 List.mem_cons_self).2 i.2
    obtain ⟨hgrows, -⟩ := writeBeside_keeps habsolute hplain hne hwritten
    obtain ⟨d₂, hdone⟩ := ih (done ++ [tempPath (toPath i.1)]) d₁ (hgrows.reliable hreliable)
      (hgrows.isAbsolute habsolute) hrest
      (hfree.of_writeBeside habsolute hplain hne hplacesRest hwritten)
    refine ⟨d₂, ?_⟩
    have hfirst : forPath (toPath i.1) (tryCatch (writeBeside (toPath i.1) i.2) fun e => do
        discard done
        Disk.quietly (Disk.removeFile (tempPath (toPath i.1)))
        throw e) d = (.ok (), d₁) :=
      forPath_eq_ok.2 (Work.tryCatch_eq_ok.2 (.inl hwritten))
    exact Work.bind_eq_ok.2 ⟨(), d₁, hfirst, hdone⟩

/-- A batch is written when nothing is in its way. -/
theorem writeArtifacts_of_free (hreliable : d.Reliable) (habsolute : isAbsolute d.base = true)
    (htop : top.Plain) (hdirectory : absolute d.base directory = toPath top)
    (hstorable : Disk.Storable top) (hpassable : d.tree.Passable top)
    (hplaced : Placed top artifacts locs) (hfree : Free d.tree locs) :
    ∃ d', writeArtifacts directory artifacts d = (.ok (locs.map toPath), d') := by
  have hfst := hplaced.map_fst_items
  have hitems : ∀ i ∈ items locs artifacts, i.1.Plain ∧ i.1 ≠ [] :=
    fun i hi => hplaced.plain i.1 (hplaced.of_mem_items hi)
  -- the directory
  obtain ⟨d₁, hensure, -⟩ :=
    Disk.ensureDirectory_of_passable hreliable habsolute htop hstorable hpassable
  have hmade : d.Grows (fun _ => False) (· <+: top) d₁ := by
    have hconfined := Disk.confined_ensureDirectory_toPath habsolute htop d rfl
    rwa [hensure] at hconfined
  have hreliable₁ := hmade.reliable hreliable
  have habsolute₁ := hmade.isAbsolute habsolute
  have hfree₁ : Free d₁.tree locs :=
    hfree.of_directory (fun a ha => ⟨(hplaced.plain a ha).2, hplaced.above a ha⟩) hmade
  -- the first pass
  obtain ⟨d₂, hfirst⟩ := writeAllBeside_of_free (items locs artifacts) [] d₁ hreliable₁ habsolute₁
    hitems (hfst.symm ▸ hfree₁)
  obtain ⟨hgrows, hloose, hthere⟩ := hplaced.first_pass habsolute hmade hfirst
  have hwaits : ∀ loc ∈ locs, Waits d₂ loc := by
    intro loc hloc
    obtain ⟨i, hi, rfl⟩ := hplaced.exists_item hloc
    refine ⟨⟨i.2, hthere hfree.distinct i hi⟩, hloose i.1 hloc ?_⟩
    intro _ _
    refine ⟨hfree.storable i.1 hloc, ?_⟩
    intro above hroot habove
    exact hfree.reachable i.1 hloc above hroot ((above_beside_iff (hitems i hi).2).1 habove)
  have hdirs : ∀ loc ∈ locs, d₂.tree.isDir loc = false := by
    intro loc hloc
    exact hplaced.isDir_eq_false (fun a ha b hb => (hfree.apart a ha b hb).1) hgrows hloc
      (hfree.takeable loc hloc).1 fun place hplace => (hfree.apart loc hloc place hplace).2.1
  -- the second pass
  obtain ⟨d₃, hsecond⟩ := placeAll_of_waits locs (hgrows.reliable hreliable)
    (hgrows.isAbsolute habsolute) hplaced.plain hfree.distinct
    (fun a ha b hb => (hfree.apart a ha b hb).1) hwaits hdirs
  exact ⟨d₃, (writeArtifacts_eq_ok htop hdirectory).2
    ⟨locs, d₁, d₂, hplaced, rfl, hensure, hfirst, hsecond⟩⟩

end Output

end Bindery
