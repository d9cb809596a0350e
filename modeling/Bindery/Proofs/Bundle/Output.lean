import Bindery.Proofs.Bundle.Place

/-!
# Writing a batch

A batch is written in two passes. The first one writes every file beside its place and changes no
other file; when it fails, what it wrote is removed again. The second one lets the files take their
places, one after the other.

* `Output.Loose` : what is beside a place can be removed.
* `Output.writeAllBeside_ok`, `Output.writeAllBeside_error` : the first pass.
* `Output.placeAll_ok`, `Output.placeAll_error` : the second pass.
-/

namespace Bindery

namespace Output

open Path Location

variable {d d' : Disk} {loc other : Location} {bytes : ByteArray} {path : String}

/-! ## Failures that concern a path -/

theorem forPath_eq_ok {α : Type} {work : DiskM α} {a : α} :
    forPath path work d = (.ok a, d') ↔ work d = (.ok a, d') := by
  unfold forPath
  rcases work d with ⟨result, t⟩
  constructor
  · intro h
    cases result with
    | ok a =>
      cases h
      rfl
    | error e => cases h
  · intro h
    cases h
    rfl

theorem forPath_eq_error {α : Type} {work : DiskM α} {e : BuildError} :
    forPath path work d = (.error e, d') ↔
      ∃ e', work d = (.error e', d') ∧ e = .write path e'.message := by
  unfold forPath
  rcases work d with ⟨result, t⟩
  constructor
  · intro h
    cases result with
    | ok a => cases h
    | error e' =>
      cases h
      exact ⟨e', rfl, rfl⟩
  · rintro ⟨e', h, rfl⟩
    cases h
    rfl

/-! ## Removing what is beside places -/

/-- Naming the path in an error changes nothing else. -/
theorem confined_forPath {base : String} {files dirs : Location → Prop} {α : Type} {work : DiskM α}
    (h : Disk.Confined base files dirs work) (path : String) :
    Disk.Confined base files dirs (forPath path work) := by
  intro d hd
  have hwork := h d hd
  unfold forPath
  rcases hresult : work d with ⟨result, d'⟩
  rw [hresult] at hwork
  cases result with
  | ok a => exact hwork
  | error e => exact hwork

/-- What is beside the place of a file, if anything, can be removed. -/
def Loose (d : Disk) (loc : Location) : Prop :=
  ∀ bytes, d.tree.read? (beside loc) = some bytes →
    Disk.Storable (beside loc) ∧ d.tree.Open (beside loc)

/-- The paths of files beside places. -/
def besidePaths (places : List Location) : List String := places.map fun loc => tempPath (toPath loc)

/-- Where nothing but files is gone, what is beside a place can still be removed. -/
theorem Loose.of_fewer (h : Loose d loc)
    (hfewer : ∀ other bytes, d'.tree.read? other = some bytes → d.tree.read? other = some bytes) :
    Loose d' loc := by
  intro bytes hread
  obtain ⟨hstorable, hopen⟩ := h bytes (hfewer _ _ hread)
  refine ⟨hstorable, ?_⟩
  intro above hne habove
  cases habove' : d'.tree.read? above with
  | none => rfl
  | some content =>
    have hgone := hopen above hne habove
    rw [hfewer above content habove'] at hgone
    cases hgone

theorem fewer_of_grows {files dirs : Location → Prop} (h : d.Grows files dirs d')
    (hgone : ∀ loc, files loc → d'.tree.read? loc = none) (other : Location) (bytes : ByteArray)
    (hread : d'.tree.read? other = some bytes) : d.tree.read? other = some bytes := by
  by_cases hfile : files other
  · rw [hgone other hfile] at hread
    cases hread
  · rw [← h.tree.read?_eq hfile]
    exact hread

/-- What is done quietly does not fail, and leaves what it would leave otherwise. -/
theorem quietly_eq (m : DiskM Unit) (d : Disk) : Disk.quietly m d = (.ok (), (m d).2) := by
  unfold Disk.quietly
  rw [Work.tryCatch_apply]
  rcases m d with ⟨result, t⟩
  cases result with
  | ok u => rfl
  | error e => rfl

theorem quietly_ok (m : DiskM Unit) (d : Disk) : ∃ d', Disk.quietly m d = (.ok (), d') :=
  ⟨_, quietly_eq m d⟩

theorem discard_cons (p : String) (r : List String) (d : Disk) :
    discard (p :: r) d = discard r (Disk.quietly (Disk.removeFile p) d).2 := by
  obtain ⟨t, hremove⟩ := quietly_ok (Disk.removeFile p) d
  rw [discard, Work.bind_apply, hremove]

theorem discard_append (paths more : List String) (d : Disk) :
    discard (paths ++ more) d = discard more (discard paths d).2 := by
  induction paths generalizing d with
  | nil => rfl
  | cons p r ih => rw [List.cons_append, discard_cons, discard_cons, ih]

theorem discard_ok (paths : List String) (d : Disk) : ∃ d', discard paths d = (.ok (), d') := by
  induction paths generalizing d with
  | nil => exact ⟨d, rfl⟩
  | cons p r ih =>
    rw [discard_cons]
    exact ih _

/-- What is beside places is removed, and nothing else. -/
theorem discard_spec (places : List Location) (hreliable : d.Reliable)
    (habsolute : isAbsolute d.base = true) (hplaces : ∀ loc ∈ places, loc.Plain ∧ loc ≠ [])
    (hloose : ∀ loc ∈ places, Loose d loc) :
    d.Grows (fun other => ∃ loc ∈ places, other = beside loc) (fun _ => False)
        (discard (besidePaths places) d).2 ∧
      ∀ loc ∈ places, (discard (besidePaths places) d).2.tree.read? (beside loc) = none := by
  induction places generalizing d with
  | nil => exact ⟨.refl d, by simp⟩
  | cons loc r ih =>
    obtain ⟨⟨hplain, hne⟩, hrest⟩ := List.forall_mem_cons.1 hplaces
    obtain ⟨hfirst, hlooseRest⟩ := List.forall_mem_cons.1 hloose
    obtain ⟨d₁, hremove, hgrows, hgone⟩ :=
      Disk.quietly_removeFile hreliable habsolute (plain_beside hplain hne) hfirst
    have hfewer := fewer_of_grows hgrows (fun other hother => hother ▸ hgone)
    obtain ⟨hgrows', hgone'⟩ := ih (hgrows.reliable hreliable) (hgrows.isAbsolute habsolute) hrest
      (fun loc hloc => (hlooseRest loc hloc).of_fewer hfewer)
    have hfewer' := fewer_of_grows hgrows' (by
      rintro other ⟨loc, hloc, rfl⟩
      exact hgone' loc hloc)
    have hrun : discard (besidePaths (loc :: r)) d = discard (besidePaths r) d₁ := by
      rw [besidePaths, List.map_cons, discard_cons, tempPath_toPath hne, hremove]
      rfl
    rw [hrun]
    constructor
    · refine (hgrows.mono ?_ fun _ => id).trans (hgrows'.mono ?_ fun _ => id)
      · intro other hother
        exact ⟨loc, List.mem_cons_self, hother⟩
      · rintro other ⟨loc', hloc', rfl⟩
        exact ⟨loc', List.mem_cons_of_mem loc hloc', rfl⟩
    · intro other hother
      rcases List.mem_cons.1 hother with rfl | hother
      · cases hread : (discard (besidePaths r) d₁).2.tree.read? (beside other) with
        | none => rfl
        | some content =>
          rw [hfewer' _ _ hread] at hgone
          cases hgone
      · exact hgone' other hother

/-! ## The first pass -/

/-- Writing beside a place makes the directory first. -/
theorem writeBeside_append {above : Location} {name : String}
    (hplain : Location.Plain (above ++ [name])) (bytes : ByteArray) :
    writeBeside (toPath (above ++ [name])) bytes =
      (Disk.ensureDirectory (toPath above) >>= fun _ =>
        Disk.writeFile (toPath (beside (above ++ [name]))) bytes) := by
  rw [writeBeside, parent?_toPath hplain, tempPath_toPath (by simp)]

/-- Whatever comes of writing beside a place, the directory is made first, and then either no file
has changed or there is a file beside the place. -/
theorem writeBeside_spec (habsolute : isAbsolute d.base = true) (hplain : loc.Plain) (hne : loc ≠ [])
    {result : Except DiskError Unit} (h : writeBeside (toPath loc) bytes d = (result, d')) :
    ∃ d₁ : Disk, d.Grows (fun _ => False) (·.Above loc) d₁ ∧ d'.base = d₁.base ∧
      d'.faults = d₁.faults ∧
      ((d'.tree = d₁.tree ∧ ∃ e, result = .error e) ∨
        ∃ content, d₁.locate (toPath (beside loc)) = .ok (beside loc) ∧
          d₁.tree.isDir (beside loc) = false ∧ (result = .ok () → content = bytes) ∧
          ∀ other, d'.tree.find? other =
            if other = beside loc then some (.file content) else d₁.tree.find? other) := by
  have hbeside := plain_beside hplain hne
  obtain ⟨above, name, rfl⟩ := (List.eq_nil_or_concat' loc).resolve_left hne
  rw [writeBeside_append hplain] at h
  have hmade := Disk.confined_ensureDirectory_toPath habsolute
    (hplain.of_isPrefix (List.prefix_append above [name])) d rfl
  have hgrows : d.Grows (fun _ => False) (·.Above (above ++ [name]))
      (Disk.ensureDirectory (toPath above) d).2 :=
    hmade.mono (fun _ => id) fun _ hway => above_append_singleton.2 hway
  rcases hensure : Disk.ensureDirectory (toPath above) d with ⟨made, d₁⟩
  rw [hensure] at hgrows
  rw [Work.bind_apply, hensure] at h
  refine ⟨d₁, hgrows, ?_⟩
  cases made with
  | error e =>
    cases h
    exact ⟨rfl, rfl, .inl ⟨rfl, e, rfl⟩⟩
  | ok u =>
    have habsolute₁ := hgrows.isAbsolute habsolute
    have hleads : ∀ {loc' : Location}, d₁.locate (toPath (beside (above ++ [name]))) = .ok loc' →
        loc' = beside (above ++ [name]) :=
      fun hlocate => (Disk.locate_eq habsolute₁ hlocate).trans (ofPath_toPath hbeside _)
    cases result with
    | ok u =>
      obtain ⟨loc', hlocate, -, hdir, hbase, hfaults, hfind⟩ := Disk.writeFile_ok habsolute₁ h
      obtain rfl := hleads hlocate
      exact ⟨hbase, hfaults, .inr ⟨bytes, hlocate, hdir, fun _ => rfl, hfind⟩⟩
    | error e =>
      obtain ⟨hbase, hfaults, hsame | ⟨loc', content, hlocate, hdir, htree⟩⟩ :=
        Disk.writeFile_error habsolute₁ h
      · exact ⟨hbase, hfaults, .inl ⟨hsame, e, rfl⟩⟩
      · obtain rfl := hleads hlocate
        refine ⟨hbase, hfaults, .inr ⟨content, hlocate, hdir, ?_, ?_⟩⟩
        · intro hok
          cases hok
        · intro other
          rw [htree, FileTree.find?_put]

/-- A file that was written beside a place is in the way of none that is beside another. -/
theorem Loose.of_written (hother : Loose d other) (hplain : loc.Plain) (hne : loc ≠ [])
    {content : ByteArray} (hlocate : d.locate (toPath (beside loc)) = .ok (beside loc))
    (hdir : d.tree.isDir (beside loc) = false)
    (hread : ∀ other, d'.tree.read? other =
      if other = beside loc then some content else d.tree.read? other) : Loose d' other := by
  have hkept : ∀ above, above ≠ beside loc → d'.tree.read? above = d.tree.read? above :=
    fun above habove => by rw [hread, if_neg habove]
  intro bytes' hread'
  by_cases hsame : beside other = beside loc
  · -- this is the file that was written
    rw [hsame]
    refine ⟨((Disk.locate_toPath_iff (plain_beside hplain hne)).1 hlocate).1, ?_⟩
    intro above habove hbelow
    rw [hkept above hbelow.2]
    exact Disk.open_of_locate (plain_beside hplain hne) hlocate above habove hbelow
  · rw [hkept _ hsame] at hread'
    obtain ⟨hstorable, hopen⟩ := hother bytes' hread'
    -- a file was not written where a directory is
    exact ⟨hstorable, hopen.of_fewer hread' hdir fun above habove hnone =>
      (hkept above habove).trans hnone⟩

/-- Whatever comes of writing beside a place, what is beside places can still be removed, and no
other file has changed. -/
theorem writeBeside_keeps (habsolute : isAbsolute d.base = true) (hplain : loc.Plain) (hne : loc ≠ [])
    {result : Except DiskError Unit} (h : writeBeside (toPath loc) bytes d = (result, d')) :
    d.Grows (· = beside loc) (·.Above loc) d' ∧
      ∀ other : Location, other.Plain → other ≠ [] → Loose d other → Loose d' other := by
  obtain ⟨d₁, hgrows, hbase, hfaults, hfinal⟩ := writeBeside_spec habsolute hplain hne h
  have hloose₁ : ∀ other, Loose d other → Loose d₁ other := by
    intro other hother
    refine hother.of_fewer fun other bytes hread => ?_
    rwa [hgrows.tree.read?_eq id] at hread
  have hgrowsTree : d.tree.Grows (· = beside loc) (·.Above loc) d₁.tree :=
    hgrows.tree.mono (fun _ hnone => hnone.elim) fun _ => id
  rcases hfinal with ⟨htree, -⟩ | ⟨content, hlocate, hdir, -, hfind⟩
  · refine ⟨⟨hbase.trans hgrows.base, hfaults.trans hgrows.faults, htree ▸ hgrowsTree⟩, ?_⟩
    intro other _ _ hother
    exact (hloose₁ other hother).of_fewer fun other bytes hread => by rwa [htree] at hread
  · have hread : ∀ other, d'.tree.read? other =
        if other = beside loc then some content else d₁.tree.read? other := by
      intro other
      rw [FileTree.read?_eq, hfind]
      split
      · rfl
      · rw [FileTree.read?_eq]
    constructor
    · refine ⟨hbase.trans hgrows.base, hfaults.trans hgrows.faults, hgrowsTree.trans ⟨?_, ?_⟩⟩
      · intro other hother
        rw [hfind, if_neg hother]
        exact .inl rfl
      · intro other hmade
        rw [hfind] at hmade
        split at hmade
        · cases hmade
        · exact .inl hmade
    · intro other _ _ hother
      exact (hloose₁ other hother).of_written hplain hne hlocate hdir hread

/-- Files with their places, as they are given to the first pass. -/
def named (items : List (Location × ByteArray)) : List (String × ByteArray) :=
  items.map fun i => (toPath i.1, i.2)

/-- The first file is written and the pass goes on, or it is not, and all is removed again. -/
theorem writeAllBeside_cons_cases {done : List String} {target : String}
    {r : List (String × ByteArray)} {result : Except BuildError Unit}
    (h : writeAllBeside done ((target, bytes) :: r) d = (result, d')) :
    (∃ d₁, writeBeside target bytes d = (.ok (), d₁) ∧
        writeAllBeside (done ++ [tempPath target]) r d₁ = (result, d')) ∨
      ∃ e t, writeBeside target bytes d = (.error e, t) ∧
        d' = (discard (done ++ [tempPath target]) t).2 ∧
        result = .error (.write target e.message) := by
  unfold writeAllBeside at h
  rw [Work.bind_apply] at h
  unfold forPath at h
  rw [Work.tryCatch_apply] at h
  rcases hwrite : writeBeside target bytes d with ⟨written, t⟩
  rw [hwrite] at h
  cases written with
  | ok u => exact .inl ⟨t, rfl, h⟩
  | error e =>
    refine .inr ⟨e, t, rfl, ?_⟩
    obtain ⟨t', hdiscard⟩ := discard_ok done t
    obtain ⟨t'', hremove⟩ := quietly_ok (Disk.removeFile (tempPath target)) t'
    simp only [Work.bind_apply, hdiscard, hremove] at h
    have hboth : (discard (done ++ [tempPath target]) t).2 = t'' := by
      rw [discard_append, hdiscard, discard_cons, hremove]
      rfl
    cases h
    exact ⟨hboth.symm, rfl⟩

/-- After the first pass every file is beside its place, if no two have the same one. -/
theorem writeAllBeside_ok (items : List (Location × ByteArray)) (done : List String)
    (habsolute : isAbsolute d.base = true) (hplaces : ∀ i ∈ items, i.1.Plain ∧ i.1 ≠ []) {u : Unit}
    (h : writeAllBeside done (named items) d = (.ok u, d')) :
    d.Grows (fun other => ∃ i ∈ items, other = beside i.1)
        (fun other => ∃ i ∈ items, other.Above i.1) d' ∧
      (∀ other : Location, other.Plain → other ≠ [] → Loose d other → Loose d' other) ∧
      ((items.map (·.1)).Nodup → ∀ i ∈ items, d'.tree.read? (beside i.1) = some i.2) := by
  induction items generalizing d done with
  | nil =>
    cases h
    exact ⟨.refl _, fun _ _ _ hother => hother, by simp⟩
  | cons i r ih =>
    obtain ⟨⟨hplain, hne⟩, hrest⟩ := List.forall_mem_cons.1 hplaces
    rcases writeAllBeside_cons_cases h with ⟨d₁, hwrite, hwriteRest⟩ | ⟨_, _, -, -, hfailed⟩
    · obtain ⟨hgrows, hloose⟩ := writeBeside_keeps habsolute hplain hne hwrite
      have hthere : d₁.tree.read? (beside i.1) = some i.2 := by
        obtain ⟨_, -, -, -, ⟨-, e, hfailed⟩ | ⟨content, -, -, hcontent, hfind⟩⟩ :=
          writeBeside_spec habsolute hplain hne hwrite
        · cases hfailed
        · rw [FileTree.read?_eq_some_iff, hfind, if_pos rfl, hcontent rfl]
      obtain ⟨hgrows', hloose', hthere'⟩ := ih _ (hgrows.isAbsolute habsolute) hrest hwriteRest
      refine ⟨?_, ?_, ?_⟩
      · refine (hgrows.mono ?_ ?_).trans (hgrows'.mono ?_ ?_)
        · exact fun other hother => ⟨i, List.mem_cons_self, hother⟩
        · exact fun other hother => ⟨i, List.mem_cons_self, hother⟩
        · exact fun other ⟨j, hj, hother⟩ => ⟨j, List.mem_cons_of_mem i hj, hother⟩
        · exact fun other ⟨j, hj, hother⟩ => ⟨j, List.mem_cons_of_mem i hj, hother⟩
      · intro other hotherPlain hotherNe hother
        exact hloose' other hotherPlain hotherNe (hloose other hotherPlain hotherNe hother)
      · intro hnodup
        obtain ⟨hnew, hnodup⟩ := List.nodup_cons.1 hnodup
        refine List.forall_mem_cons.2 ⟨?_, hthere' hnodup⟩
        -- the later files are beside other places
        have hapart : ¬∃ j ∈ r, beside i.1 = beside j.1 := by
          rintro ⟨j, hj, heq⟩
          refine hnew (List.mem_map.2 ⟨j, hj, ?_⟩)
          exact (beside_injective hne (hrest j hj).2 heq).symm
        rw [hgrows'.tree.read?_eq hapart]
        exact hthere
    · cases hfailed

/-- When the first pass fails, nothing is left beside the places. -/
theorem writeAllBeside_error (items : List (Location × ByteArray)) (done : List Location)
    (hreliable : d.Reliable) (habsolute : isAbsolute d.base = true)
    (hplaces : ∀ loc ∈ done ++ items.map (·.1), loc.Plain ∧ loc ≠ [])
    (hloose : ∀ loc ∈ done ++ items.map (·.1), Loose d loc)
    (hnodup : (items.map (·.1)).Nodup)
    (hfree : ∀ i ∈ items, d.tree.read? (beside i.1) = none) {e : BuildError}
    (h : writeAllBeside (besidePaths done) (named items) d = (.error e, d')) :
    d.Grows (fun other => ∃ loc ∈ done ++ items.map (·.1), other = beside loc)
        (fun other => ∃ i ∈ items, other.Above i.1) d' ∧
      ∀ loc ∈ done ++ items.map (·.1), d'.tree.read? (beside loc) = none := by
  induction items generalizing d done with
  | nil => cases h
  | cons i r ih =>
    obtain ⟨hplain, hne⟩ := hplaces i.1 (by simp)
    obtain ⟨hnew, hnodup⟩ := List.nodup_cons.1 hnodup
    -- the file moves from those to be written to those that are done
    have hmoved : done ++ (i :: r).map (·.1) = (done ++ [i.1]) ++ r.map (·.1) := by simp
    rw [hmoved] at hplaces hloose ⊢
    have hdone : besidePaths done ++ [tempPath (toPath i.1)] = besidePaths (done ++ [i.1]) := by
      simp [besidePaths]
    have hapart : ∀ j ∈ r, beside j.1 ≠ beside i.1 := by
      intro j hj heq
      have hj' : j.1 ∈ (done ++ [i.1]) ++ r.map (·.1) :=
        List.mem_append_right _ (List.mem_map_of_mem hj)
      exact hnew (List.mem_map.2 ⟨j, hj, beside_injective (hplaces _ hj').2 hne heq⟩)
    rcases writeAllBeside_cons_cases h with ⟨d₁, hwrite, hwriteRest⟩ | ⟨_, t, hwrite, hd', -⟩
    all_goals
      obtain ⟨hgrows, hkeeps⟩ := writeBeside_keeps habsolute hplain hne hwrite
      have hlooseNow := fun loc hloc =>
        hkeeps loc (hplaces loc hloc).1 (hplaces loc hloc).2 (hloose loc hloc)
      have hfreeNow := fun j hj =>
        (hgrows.tree.read?_eq (hapart j hj)).trans (hfree j (List.mem_cons_of_mem i hj))
      have hgrowsAll := hgrows.mono
        (fun other hother => (⟨i.1, by simp, hother⟩ :
          ∃ loc ∈ (done ++ [i.1]) ++ r.map (·.1), other = beside loc))
        (fun other hother => (⟨i, List.mem_cons_self, hother⟩ : ∃ j ∈ i :: r, other.Above j.1))
    · rw [hdone] at hwriteRest
      obtain ⟨hgrows', hgone⟩ := ih (done ++ [i.1]) (hgrows.reliable hreliable)
        (hgrows.isAbsolute habsolute) hplaces hlooseNow hnodup hfreeNow hwriteRest
      refine ⟨hgrowsAll.trans (hgrows'.mono (fun _ => id) ?_), hgone⟩
      exact fun other ⟨j, hj, hother⟩ => ⟨j, List.mem_cons_of_mem i hj, hother⟩
    · rw [hdone] at hd'
      obtain ⟨hgrows', hgone⟩ := discard_spec (done ++ [i.1]) (hgrows.reliable hreliable)
        (hgrows.isAbsolute habsolute) (fun loc hloc => hplaces loc (List.mem_append_left _ hloc))
        (fun loc hloc => hlooseNow loc (List.mem_append_left _ hloc))
      rw [← hd'] at hgrows' hgone
      constructor
      · refine hgrowsAll.trans (hgrows'.mono ?_ fun _ hnone => hnone.elim)
        exact fun other ⟨loc, hloc, hother⟩ => ⟨loc, List.mem_append_left _ hloc, hother⟩
      · intro loc hloc
        by_cases hremoved : ∃ loc' ∈ done ++ [i.1], beside loc = beside loc'
        · obtain ⟨loc', hloc', heq⟩ := hremoved
          rw [heq]
          exact hgone loc' hloc'
        · rw [hgrows'.tree.read?_eq hremoved]
          rcases List.mem_append.1 hloc with hin | hin
          · exact absurd ⟨loc, hin, rfl⟩ hremoved
          · obtain ⟨j, hj, rfl⟩ := List.mem_map.1 hin
            exact hfreeNow j hj

/-! ## The second pass -/

/-- The first file takes its place and the pass goes on, or it does not, and all that is still
beside its place is removed. -/
theorem placeAll_cons_cases {target : String} {r : List String} {result : Except BuildError Unit}
    (h : placeAll (target :: r) d = (result, d')) :
    (∃ d₁, Disk.rename (tempPath target) target d = (.ok (), d₁) ∧
        placeAll r d₁ = (result, d')) ∨
      ∃ e t, Disk.rename (tempPath target) target d = (.error e, t) ∧
        d' = (discard ((target :: r).map tempPath) t).2 ∧
        result = .error (.write target e.message) := by
  unfold placeAll at h
  rw [Work.bind_apply] at h
  unfold forPath at h
  rw [Work.tryCatch_apply] at h
  rcases hrename : Disk.rename (tempPath target) target d with ⟨renamed, t⟩
  rw [hrename] at h
  cases renamed with
  | ok u => exact .inl ⟨t, rfl, h⟩
  | error e =>
    refine .inr ⟨e, t, rfl, ?_⟩
    obtain ⟨t', hdiscard⟩ := discard_ok ((target :: r).map tempPath) t
    simp only [Work.bind_apply, hdiscard] at h
    cases h
    rw [hdiscard]
    exact ⟨rfl, rfl⟩

/-- A file that took its place is there, and no longer beside it. -/
theorem rename_spec (habsolute : isAbsolute d.base = true) (hplain : loc.Plain) (hne : loc ≠ [])
    {u : Unit} (h : Disk.rename (tempPath (toPath loc)) (toPath loc) d = (.ok u, d')) :
    ∃ content, d.tree.read? (beside loc) = some content ∧ d.tree.isDir loc = false ∧
      d'.base = d.base ∧ d'.faults = d.faults ∧
      ∀ other, d'.tree.find? other = if other = loc then some (.file content)
        else if other = beside loc then none else d.tree.find? other := by
  rw [tempPath_toPath hne] at h
  obtain ⟨old, new, content, hold, hnew, hread, -, hdir, rfl⟩ := Disk.rename_ok h
  obtain rfl := (Disk.locate_eq habsolute hold).trans (ofPath_toPath (plain_beside hplain hne) _)
  obtain rfl := (Disk.locate_eq habsolute hnew).trans (ofPath_toPath hplain _)
  refine ⟨content, hread, hdir, rfl, rfl, ?_⟩
  intro other
  simp only [Disk.after, FileTree.find?_put, FileTree.find?_erase]

/-- What a batch works on: its places, and what is beside them. -/
def Touches (places : List Location) (loc : Location) : Prop :=
  ∃ place ∈ places, loc = place ∨ loc = beside place

theorem touches_singleton_iff : Touches [loc] other ↔ other = loc ∨ other = beside loc := by
  simp [Touches]

theorem touches_cons_iff {places : List Location} :
    Touches (loc :: places) other ↔ Touches [loc] other ∨ Touches places other := by
  simp [Touches]

/-- A move to a place changes the place and what is beside it. -/
theorem grows_of_rename (habsolute : isAbsolute d.base = true) (hplain : loc.Plain) (hne : loc ≠ [])
    {u : Unit} (h : Disk.rename (tempPath (toPath loc)) (toPath loc) d = (.ok u, d')) :
    d.Grows (Touches [loc]) (fun _ => False) d' := by
  obtain ⟨content, -, -, hbase, hfaults, hfind⟩ := rename_spec habsolute hplain hne h
  refine ⟨hbase, hfaults, ?_, ?_⟩
  · intro other hother
    rw [touches_singleton_iff, not_or] at hother
    rw [hfind, if_neg hother.1, if_neg hother.2]
    exact .inl rfl
  · intro other hmade
    rw [hfind] at hmade
    split at hmade
    · cases hmade
    · split at hmade
      · cases hmade
      · exact .inl hmade

/-- After the second pass every file is at its place and none is beside it. No two files had the
same place, or the second one would not have been beside it any more. -/
theorem placeAll_ok (places : List Location) (habsolute : isAbsolute d.base = true)
    (hplaces : ∀ loc ∈ places, loc.Plain ∧ loc ≠ [])
    (hapart : ∀ a ∈ places, ∀ b ∈ places, beside a ≠ b) {u : Unit}
    (h : placeAll (places.map toPath) d = (.ok u, d')) :
    places.Nodup ∧ d.Grows (Touches places) (fun _ => False) d' ∧
      ∀ loc ∈ places, d'.tree.read? (beside loc) = none ∧
        ∃ content, d.tree.read? (beside loc) = some content ∧ d'.tree.read? loc = some content := by
  induction places generalizing d with
  | nil =>
    cases h
    exact ⟨List.nodup_nil, .refl _, by simp⟩
  | cons loc r ih =>
    obtain ⟨⟨hplain, hne⟩, hrest⟩ := List.forall_mem_cons.1 hplaces
    have hapartRest : ∀ a ∈ r, ∀ b ∈ r, beside a ≠ b := fun a ha b hb =>
      hapart a (List.mem_cons_of_mem loc ha) b (List.mem_cons_of_mem loc hb)
    rcases placeAll_cons_cases h with ⟨d₁, hrename, hplaceRest⟩ | ⟨_, _, -, -, hfailed⟩
    · obtain ⟨content, hread, -, hbase, -, hfind⟩ := rename_spec habsolute hplain hne hrename
      have hgrows := grows_of_rename habsolute hplain hne hrename
      obtain ⟨hnodup, hgrows', hdone⟩ :=
        ih (hbase ▸ habsolute) hrest hapartRest hplaceRest
      have hgone : d₁.tree.read? (beside loc) = none := by
        have hother := hapart loc List.mem_cons_self loc List.mem_cons_self
        simp [FileTree.read?_eq, hfind, hother]
      have hthere : d₁.tree.read? loc = some content := by
        simp [FileTree.read?_eq, hfind]
      -- what is moved later was still beside its place, so it had another place
      have hnew : loc ∉ r := by
        intro hmem
        obtain ⟨-, _, hlater, -⟩ := hdone loc hmem
        rw [hgone] at hlater
        cases hlater
      have hbesideRest : ∀ b ∈ r, beside loc ≠ beside b := by
        intro b hb heq
        exact hnew ((beside_injective hne (hrest b hb).2 heq) ▸ hb)
      have hplaceKept : ¬Touches r loc := by
        rintro ⟨place, hplace, heq | heq⟩
        · exact hnew (heq ▸ hplace)
        · exact hapart place (List.mem_cons_of_mem loc hplace) loc List.mem_cons_self heq.symm
      have hbesideKept : ¬Touches r (beside loc) := by
        rintro ⟨place, hplace, heq | heq⟩
        · exact hapart loc List.mem_cons_self place (List.mem_cons_of_mem loc hplace) heq
        · exact hbesideRest place hplace heq
      refine ⟨List.nodup_cons.2 ⟨hnew, hnodup⟩, ?_, ?_⟩
      · exact (hgrows.mono (fun other hother => touches_cons_iff.2 (.inl hother)) fun _ => id).trans
          (hgrows'.mono (fun other hother => touches_cons_iff.2 (.inr hother)) fun _ => id)
      · refine List.forall_mem_cons.2 ⟨⟨?_, content, hread, ?_⟩, ?_⟩
        · rw [hgrows'.tree.read?_eq hbesideKept, hgone]
        · rw [hgrows'.tree.read?_eq hplaceKept, hthere]
        · intro place hplace
          obtain ⟨hgone', content', hread', hthere'⟩ := hdone place hplace
          refine ⟨hgone', content', ?_, hthere'⟩
          have hkept : ¬Touches [loc] (beside place) := by
            rw [touches_singleton_iff]
            rintro (heq | heq)
            · exact hapart place (List.mem_cons_of_mem _ hplace) _ List.mem_cons_self heq
            · exact hbesideRest place hplace heq.symm
          rw [← hgrows.tree.read?_eq hkept]
          exact hread'
    · cases hfailed

/-- A file that waits beside its place: it is there, and it can be moved. -/
structure Waits (d : Disk) (loc : Location) : Prop where
  there : ∃ content, d.tree.read? (beside loc) = some content
  loose : Loose d loc

/-- Without faults, a file that waits takes its place unless a directory is there. -/
theorem rename_of_waits (hreliable : d.Reliable) (hplain : loc.Plain) (hne : loc ≠ [])
    (hwaits : Waits d loc) (hdir : d.tree.isDir loc = false) :
    ∃ d', Disk.rename (tempPath (toPath loc)) (toPath loc) d = (.ok (), d') := by
  obtain ⟨content, hread⟩ := hwaits.there
  obtain ⟨hstorable, hopen⟩ := hwaits.loose content hread
  have hold := Disk.locate_of_open (plain_beside hplain hne) hstorable hopen hread
  have hnew : d.locate (toPath loc) = .ok loc := by
    refine (Disk.locate_toPath_iff hplain).2 ⟨storable_of_beside hne hstorable, ?_⟩
    intro above habove
    exact ((Disk.locate_toPath_iff (plain_beside hplain hne)).1 hold).2 above
      ((above_beside_iff hne).2 habove)
  rw [tempPath_toPath hne]
  exact ⟨_, Disk.rename_eq (hreliable d.steps) hold hnew hread hne hdir⟩

/-- A move to a place keeps the files that wait beside other places. -/
theorem Waits.rename (hwaits : Waits d other) (habsolute : isAbsolute d.base = true)
    (hplain : loc.Plain) (hne : loc ≠ []) (hotherNe : other ≠ []) (hne' : other ≠ loc)
    (hapart : beside other ≠ loc) {u : Unit}
    (h : Disk.rename (tempPath (toPath loc)) (toPath loc) d = (.ok u, d')) : Waits d' other := by
  obtain ⟨content, hread⟩ := hwaits.there
  obtain ⟨hstorable, hopen⟩ := hwaits.loose content hread
  obtain ⟨moved, -, hdir, -, -, hfind⟩ := rename_spec habsolute hplain hne h
  have hkept : d'.tree.read? (beside other) = some content := by
    have hbeside : beside other ≠ beside loc :=
      fun heq => hne' (beside_injective hotherNe hne heq)
    rw [FileTree.read?_eq_some_iff, hfind, if_neg hapart, if_neg hbeside]
    exact FileTree.read?_eq_some_iff.1 hread
  refine ⟨⟨content, hkept⟩, fun _ _ => ⟨hstorable, ?_⟩⟩
  -- a file did not take its place where a directory is
  refine hopen.of_fewer hread hdir ?_
  intro above habove hnone
  rw [FileTree.read?_eq, hfind, if_neg habove]
  split
  · rfl
  · rw [← FileTree.read?_eq]
    exact hnone

/-- A move to a place makes no directory of another one. -/
theorem isDir_of_rename (habsolute : isAbsolute d.base = true) (hplain : loc.Plain) (hne : loc ≠ [])
    (hwaits : Waits d loc) (hotherNe : other ≠ []) (hne' : other ≠ loc) (hapart : other ≠ beside loc)
    {u : Unit} (h : Disk.rename (tempPath (toPath loc)) (toPath loc) d = (.ok u, d'))
    (hdir : d'.tree.isDir other = true) : d.tree.isDir other = true := by
  obtain ⟨content, hread⟩ := hwaits.there
  obtain ⟨-, hopen⟩ := hwaits.loose content hread
  have hgrows : d.tree.Grows (Touches [loc]) (·.Above loc) d'.tree :=
    (grows_of_rename habsolute hplain hne h).tree.mono (fun _ => id) fun _ hnone => hnone.elim
  have hfiles : ∀ place above : Location, Touches [loc] place → above.Above place → above.Above loc := by
    intro place above hplace habove
    rcases touches_singleton_iff.1 hplace with rfl | rfl
    · exact habove
    · exact (above_beside_iff hne).1 habove
  have hkept : ¬Touches [loc] other := by
    rw [touches_singleton_iff]
    exact fun heq => heq.elim hne' hapart
  rcases hgrows.isDir_cases hfiles (fun _ _ hplace habove => habove.trans_isPrefix hplace.1)
    (hgrows.read?_eq_none hkept hdir) hdir with hbefore | habove
  · exact hbefore
  · exact hopen.isDir hread hotherNe ((above_beside_iff hne).2 habove)

/-- Without faults, files that wait take their places if no directory is at one of these. -/
theorem placeAll_of_waits (places : List Location) (hreliable : d.Reliable)
    (habsolute : isAbsolute d.base = true) (hplaces : ∀ loc ∈ places, loc.Plain ∧ loc ≠ [])
    (hnodup : places.Nodup) (hapart : ∀ a ∈ places, ∀ b ∈ places, beside a ≠ b)
    (hwaits : ∀ loc ∈ places, Waits d loc) (hdirs : ∀ loc ∈ places, d.tree.isDir loc = false) :
    ∃ d', placeAll (places.map toPath) d = (.ok (), d') := by
  induction places generalizing d with
  | nil => exact ⟨d, rfl⟩
  | cons loc r ih =>
    obtain ⟨⟨hplain, hne⟩, hrest⟩ := List.forall_mem_cons.1 hplaces
    obtain ⟨hnew, hnodup⟩ := List.nodup_cons.1 hnodup
    obtain ⟨hfirst, hwaitsRest⟩ := List.forall_mem_cons.1 hwaits
    obtain ⟨hdir, hdirsRest⟩ := List.forall_mem_cons.1 hdirs
    obtain ⟨d₁, hrename⟩ := rename_of_waits hreliable hplain hne hfirst hdir
    have hgrows := grows_of_rename habsolute hplain hne hrename
    obtain ⟨d', hplaceRest⟩ := ih (hgrows.reliable hreliable) (hgrows.isAbsolute habsolute) hrest
      hnodup
      (fun a ha b hb => hapart a (List.mem_cons_of_mem loc ha) b (List.mem_cons_of_mem loc hb))
      (fun other hother => (hwaitsRest other hother).rename habsolute hplain hne (hrest other hother).2
        (fun heq => hnew (heq ▸ hother))
        (hapart other (List.mem_cons_of_mem loc hother) loc List.mem_cons_self) hrename)
      (fun other hother => by
        by_contra hbecame
        rw [Bool.not_eq_false] at hbecame
        have hbefore := isDir_of_rename habsolute hplain hne hfirst (hrest other hother).2
          (fun heq => hnew (heq ▸ hother))
          (Ne.symm (hapart loc List.mem_cons_self other (List.mem_cons_of_mem loc hother)))
          hrename hbecame
        rw [hdirsRest other hother] at hbefore
        cases hbefore)
    refine ⟨d', ?_⟩
    rw [List.map_cons, placeAll, Work.bind_apply, forPath, Work.tryCatch_apply, hrename]
    exact hplaceRest

/-- When the second pass fails though only the first place can be a directory, nothing is left
beside the places, and no file has changed. -/
theorem placeAll_error (places : List Location) (hreliable : d.Reliable)
    (habsolute : isAbsolute d.base = true) (hplaces : ∀ loc ∈ places, loc.Plain ∧ loc ≠ [])
    (hnodup : places.Nodup) (hapart : ∀ a ∈ places, ∀ b ∈ places, beside a ≠ b)
    (hwaits : ∀ loc ∈ places, Waits d loc)
    (hdirs : ∀ loc ∈ places.tail, d.tree.isDir loc = false) {e : BuildError}
    (h : placeAll (places.map toPath) d = (.error e, d')) :
    d.Grows (fun other => ∃ loc ∈ places, other = beside loc) (fun _ => False) d' ∧
      ∀ loc ∈ places, d'.tree.read? (beside loc) = none := by
  cases places with
  | nil => cases h
  | cons loc r =>
    rcases placeAll_cons_cases h with ⟨d₁, hrename, -⟩ | ⟨_, t, hrename, hd', -⟩
    · -- the first file took its place, so the others can do so too
      obtain ⟨⟨hplain, hne⟩, -⟩ := List.forall_mem_cons.1 hplaces
      obtain ⟨-, -, hdir, -⟩ := rename_spec habsolute hplain hne hrename
      obtain ⟨d'', hok⟩ := placeAll_of_waits (loc :: r) hreliable habsolute hplaces hnodup hapart
        hwaits (List.forall_mem_cons.2 ⟨hdir, hdirs⟩)
      rw [hok] at h
      cases h
    · obtain rfl := Disk.rename_error hrename
      have hpaths : (toPath loc :: r.map toPath).map tempPath = besidePaths (loc :: r) := by
        rw [← List.map_cons, List.map_map]
        rfl
      obtain ⟨hgrows, hgone⟩ := discard_spec (d := d.after d.tree) (loc :: r) hreliable habsolute
        hplaces (fun place hplace => (hwaits place hplace).loose)
      rw [hpaths] at hd'
      rw [← hd'] at hgrows hgone
      exact ⟨(Disk.Grows.after d).trans hgrows, hgone⟩

end Output

end Bindery
