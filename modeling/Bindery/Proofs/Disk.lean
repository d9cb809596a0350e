import Bindery.Disk
import Bindery.Proofs.FileTree
import Bindery.Proofs.Path

/-!
# What work on a disk does

A step that fails changes nothing but the count of steps. A step that is done changes what is found
at the location that its path means, and this location is read off the path alone. Longer work is
put together from steps, so what it can change is known from the paths it works on, whatever comes
of it.

* `Work.bind_eq_ok`, `Work.bind_eq_error`, `Work.tryCatch_eq_ok` : how work that is put together
  ends.
* `Disk.locate_eq` : a path leads to what it means, if anywhere.
* `Disk.locate_toPath_iff` : when the text of a location leads there.
* `Disk.Grows`, `Disk.Confined` : what is changed at most.
-/

namespace Bindery

/-! ## How work ends -/

namespace Work

variable {ε α β σ : Type} {x : ExceptT ε (StateM σ) α} {f : α → ExceptT ε (StateM σ) β}
  {recover : ε → ExceptT ε (StateM σ) α} {d d' : σ} {a : α} {b : β} {e : ε}

theorem bind_apply (x : ExceptT ε (StateM σ) α) (f : α → ExceptT ε (StateM σ) β) (d : σ) :
    (x >>= f) d = match x d with
      | (.ok a, t) => f a t
      | (.error e, t) => (.error e, t) := by
  show (ExceptT.bind x f).run d = _
  simp only [ExceptT.bind, ExceptT.run_mk, bind, StateT.bind]
  rcases hx : x d with ⟨result, t⟩
  cases result with
  | ok a => rfl
  | error e => rfl

theorem tryCatch_apply (x : ExceptT ε (StateM σ) α) (recover : ε → ExceptT ε (StateM σ) α) (d : σ) :
    (tryCatch x recover : ExceptT ε (StateM σ) α) d = match x d with
      | (.ok a, t) => (.ok a, t)
      | (.error e, t) => recover e t := by
  show (ExceptT.tryCatch x recover).run d = _
  simp only [ExceptT.tryCatch, ExceptT.run_mk, bind, StateT.bind]
  rcases hx : x d with ⟨result, t⟩
  cases result with
  | ok a => rfl
  | error e => rfl

theorem bind_eq_ok :
    (x >>= f) d = (.ok b, d') ↔ ∃ a t, x d = (.ok a, t) ∧ f a t = (.ok b, d') := by
  rw [bind_apply]
  rcases x d with ⟨result, t⟩
  constructor
  · intro h
    cases result with
    | ok a => exact ⟨a, t, rfl, h⟩
    | error e => cases h
  · rintro ⟨a, t', heq, h⟩
    cases heq
    exact h

theorem bind_eq_error : (x >>= f) d = (.error e, d') ↔
    x d = (.error e, d') ∨ ∃ a t, x d = (.ok a, t) ∧ f a t = (.error e, d') := by
  rw [bind_apply]
  rcases x d with ⟨result, t⟩
  constructor
  · intro h
    cases result with
    | ok a => exact .inr ⟨a, t, rfl, h⟩
    | error e' =>
      cases h
      exact .inl rfl
  · rintro (heq | ⟨a, t', heq, h⟩)
    · cases heq
      rfl
    · cases heq
      exact h

theorem tryCatch_eq_ok : (tryCatch x recover : ExceptT ε (StateM σ) α) d = (.ok a, d') ↔
    x d = (.ok a, d') ∨ ∃ e t, x d = (.error e, t) ∧ recover e t = (.ok a, d') := by
  rw [tryCatch_apply]
  rcases x d with ⟨result, t⟩
  constructor
  · intro h
    cases result with
    | ok a' =>
      cases h
      exact .inl rfl
    | error e => exact .inr ⟨e, t, rfl, h⟩
  · rintro (heq | ⟨e, t', heq, h⟩)
    · cases heq
      rfl
    · cases heq
      exact h

end Work

namespace Disk

open Path

variable {t : FileTree} {d d' : Disk} {base path : String} {loc : Location} {e : DiskError}

/-! ## Where paths lead -/

/-- Following components comes to what they mean. -/
theorem foldl_step_of_walk {from_ : Location} (segments : List String)
    (h : walk t from_ (segments.map Component.ofSegment) = .ok loc) :
    (segments.map Component.ofSegment).foldl Path.step (from_.reverse.map .name ++ [.root]) =
      loc.reverse.map .name ++ [.root] := by
  induction segments generalizing from_ with
  | nil =>
    obtain rfl : from_ = loc := by simpa [walk] using h
    rfl
  | cons segment r ih =>
    simp only [List.map_cons, List.foldl_cons, Component.ofSegment] at h ⊢
    split at h
    · -- going up
      next hup =>
      simp only [hup, if_true]
      simp only [walk] at h
      split at h
      · cases h
      · have hrest := ih h
        rcases List.eq_nil_or_concat' from_ with rfl | ⟨above, name, rfl⟩
        · simpa [Path.step] using hrest
        · simpa [Path.step] using hrest
    · -- going down
      next hname =>
      simp only [hname, if_false]
      simp only [walk] at h
      split at h
      · cases h
      · split at h
        · have hrest := ih h
          simpa [Path.step] using hrest
        · cases h

/-- A path leads to what it means, if anywhere. -/
theorem locate_eq (hbase : isAbsolute d.base = true) (h : d.locate path = .ok loc) :
    loc = Location.ofPath d.base path := by
  unfold locate at h
  split at h
  · cases h
  · have habsolute := isAbsolute_join hbase path
    rw [components_of_isAbsolute habsolute] at h
    have hfold := foldl_step_of_walk _ (by simpa [walk] using h)
    have hclean : cleanComponents (components (join d.base path)) = .root :: loc.map .name := by
      rw [components_of_isAbsolute habsolute, cleanComponents, List.foldl_cons]
      have hroot : Path.step [] Component.root = ([] : Location).reverse.map .name ++ [.root] := rfl
      rw [hroot, hfold]
      simp
    rw [Location.ofPath, hclean, List.filterMap_cons, List.filterMap_map]
    exact List.filterMap_some.symm

/-- The location can be written and is short enough for a disk. -/
def Storable (loc : Location) : Prop :=
  '\x00' ∉ (Location.toPath loc).toList ∧ ∀ name ∈ loc, name.utf8ByteSize ≤ nameLimit

theorem storable_iff : Storable loc ↔
    ∀ name ∈ loc, '\x00' ∉ name.toList ∧ name.utf8ByteSize ≤ nameLimit := by
  rw [Storable, Location.mem_toPath_iff (by decide)]
  constructor
  · rintro ⟨hnul, hsizes⟩ name hname
    exact ⟨fun hmem => hnul ⟨name, hname, hmem⟩, hsizes name hname⟩
  · intro h
    exact ⟨fun ⟨name, hname, hmem⟩ => (h name hname).1 hmem, fun name hname => (h name hname).2⟩

theorem Storable.of_isPrefix {above : Location} (h : Storable loc) (hway : above <+: loc) :
    Storable above :=
  storable_iff.2 fun name hname => storable_iff.1 h name (hway.subset hname)

theorem walk_cons_name {from_ : Location} {name : String} {r : List Component} :
    walk t from_ (.name name :: r) = .ok loc ↔
      (from_ = [] ∨ t.isDir from_ = true) ∧ name.utf8ByteSize ≤ nameLimit ∧
        walk t (from_ ++ [name]) r = .ok loc := by
  simp only [walk]
  by_cases hdir : from_ = [] ∨ t.isDir from_ = true
  · have hopen : (from_.isEmpty || t.isDir from_) = true := by simpa using hdir
    by_cases hsize : name.utf8ByteSize ≤ nameLimit
    · simp [hopen, hdir, hsize]
    · simp [hopen, hsize]
  · have hshut : (from_.isEmpty || t.isDir from_) = false := by simpa using hdir
    simp [hshut, hdir]

/-- Names are followed to where they lead when all on the way are directories. -/
theorem walk_names {from_ : Location} {names : List String} :
    walk t from_ (names.map .name) = .ok loc ↔
      loc = from_ ++ names ∧ (∀ name ∈ names, name.utf8ByteSize ≤ nameLimit) ∧
        ∀ before, before <+: names → before ≠ names →
          from_ ++ before = [] ∨ t.isDir (from_ ++ before) = true := by
  induction names generalizing from_ with
  | nil =>
    simp only [List.map_nil, walk, Except.ok.injEq, List.append_nil, List.not_mem_nil,
      false_implies, implies_true, true_and, eq_comm (a := from_), List.prefix_nil]
    exact ⟨fun h => ⟨h, fun before hnil hne => absurd hnil hne⟩, fun h => h.1⟩
  | cons name r ih =>
    rw [List.map_cons, walk_cons_name, ih, List.append_assoc, List.singleton_append]
    constructor
    · rintro ⟨hdir, hsize, heq, hsizes, hdirs⟩
      refine ⟨heq, List.forall_mem_cons.2 ⟨hsize, hsizes⟩, ?_⟩
      intro before hway hne
      cases before with
      | nil => simpa using hdir
      | cons first rest =>
        obtain ⟨rfl, hrest⟩ := List.cons_prefix_cons.1 hway
        simpa using hdirs rest hrest (fun h => hne (by rw [h]))
    · rintro ⟨heq, hsizes, hdirs⟩
      obtain ⟨hsize, hsizes⟩ := List.forall_mem_cons.1 hsizes
      refine ⟨by simpa using hdirs [] List.nil_prefix (by simp), hsize, heq, hsizes, ?_⟩
      intro before hway hne
      have hbelow := hdirs (name :: before) (List.cons_prefix_cons.2 ⟨rfl, hway⟩)
        (fun h => hne (List.cons.inj h).2)
      simpa using hbelow

/-- The text of a plain location leads there exactly if it is storable and all on the way to it are
directories. -/
theorem locate_toPath_iff (hplain : loc.Plain) : d.locate (Location.toPath loc) = .ok loc ↔
    Storable loc ∧ ∀ above : Location, above.Above loc → above = [] ∨ d.tree.isDir above = true := by
  have hwalk : walk d.tree [] (components (join d.base (Location.toPath loc))) =
      walk d.tree [] (loc.map .name) := by
    rw [join_of_isAbsolute (Location.isAbsolute_toPath loc), Location.components_toPath hplain]
    rfl
  unfold locate
  rw [hwalk]
  by_cases hnul : '\x00' ∈ (Location.toPath loc).toList
  · simp [hnul, Storable]
  · have hcontains : (Location.toPath loc).toList.contains '\x00' = false := by simpa using hnul
    rw [hcontains]
    simp only [Bool.false_eq_true, if_false, walk_names, List.nil_append, true_and]
    constructor
    · rintro ⟨hsizes, hdirs⟩
      exact ⟨⟨hnul, hsizes⟩, fun above habove => hdirs above habove.1 habove.2⟩
    · rintro ⟨⟨-, hsizes⟩, hdirs⟩
      exact ⟨hsizes, fun above hway hne => hdirs above ⟨hway, hne⟩⟩

/-- Where a path leads, no file stands on the way. -/
theorem open_of_locate (hplain : loc.Plain) (h : d.locate (Location.toPath loc) = .ok loc) :
    d.tree.Open loc := by
  intro above hne habove
  have hdir := (((locate_toPath_iff hplain).1 h).2 above habove).resolve_left hne
  exact (FileTree.isDir_iff.1 hdir).1

/-- The path of a file leads to it when no file stands on the way. -/
theorem locate_of_open (hplain : loc.Plain) (hstorable : Storable loc) (hopen : d.tree.Open loc)
    {bytes : ByteArray} (hfile : d.tree.read? loc = some bytes) :
    d.locate (Location.toPath loc) = .ok loc := by
  refine (locate_toPath_iff hplain).2 ⟨hstorable, ?_⟩
  intro above habove
  by_cases hne : above = []
  · exact .inl hne
  · exact .inr (hopen.isDir hfile hne habove)

/-! ## Single steps -/

/-- The disk one step later, with another tree. -/
def after (d : Disk) (t : FileTree) : Disk := { d with tree := t, steps := d.steps + 1 }

variable {change : FileTree → Location → Except DiskError FileTree} {u : Unit} {bytes : ByteArray}

/-- A step that is done changes the tree as it says. -/
theorem step_ok (h : step path change d = (.ok u, d')) :
    ∃ loc t, d.locate path = .ok loc ∧ change d.tree loc = .ok t ∧ d' = d.after t := by
  unfold step at h
  split at h
  · cases h
  · cases hlocate : d.locate path with
    | error e =>
      rw [hlocate] at h
      cases h
    | ok loc =>
      cases hchange : change d.tree loc with
      | error e =>
        simp only [hlocate, Except.bind, hchange] at h
        cases h
      | ok t =>
        simp only [hlocate, Except.bind, hchange] at h
        cases h
        exact ⟨loc, t, rfl, hchange, rfl⟩

/-- A step that fails changes nothing. Without a fault it fails for a reason in the tree. -/
theorem step_error (h : step path change d = (.error e, d')) :
    d' = d.after d.tree ∧
      (d.faults d.steps = true ∨ (d.locate path).bind (change d.tree) = .error e) := by
  unfold step at h
  split at h
  · next hfault =>
    cases h
    exact ⟨rfl, .inl hfault⟩
  · split at h
    · cases h
    · next hbind =>
      cases h
      exact ⟨rfl, .inr hbind⟩

/-- Without a fault a step that can be done is done. -/
theorem step_eq (hfault : d.faults d.steps = false) (hlocate : d.locate path = .ok loc) {t : FileTree}
    (hchange : change d.tree loc = .ok t) : step path change d = (.ok (), d.after t) := by
  simp [step, hfault, hlocate, Except.bind, hchange, after]

theorem sync_ok (h : sync path d = (.ok u, d')) : d' = d.after d.tree := by
  obtain ⟨_, t, -, hchange, rfl⟩ := step_ok h
  cases hchange
  rfl

theorem createFile_ok (h : createFile path d = (.ok u, d')) :
    ∃ loc, d.locate path = .ok loc ∧ loc ≠ [] ∧ d.tree.isDir loc = false ∧
      d' = d.after (d.tree.put loc (.file ByteArray.empty)) := by
  obtain ⟨loc, t, hlocate, hchange, rfl⟩ := step_ok h
  split at hchange
  · cases hchange
  · next hfree =>
    cases hchange
    simp only [Bool.or_eq_true, List.isEmpty_iff, not_or, Bool.not_eq_true] at hfree
    exact ⟨loc, hlocate, hfree.1, hfree.2, rfl⟩

/-- A file that was filled holds all of it. -/
theorem fillFile_ok (h : fillFile path bytes d = (.ok u, d')) :
    ∃ loc, d.locate path = .ok loc ∧ d' = d.after (d.tree.put loc (.file bytes)) := by
  unfold fillFile at h
  split at h
  · cases h
  · obtain ⟨loc, t, hlocate, hchange, rfl⟩ := step_ok h
    cases hchange
    exact ⟨loc, hlocate, rfl⟩

/-- A file that was not filled is as it was, or holds a part. -/
theorem fillFile_error (h : fillFile path bytes d = (.error e, d')) :
    ∃ t, d' = d.after t ∧
      (t = d.tree ∨ ∃ loc part, d.locate path = .ok loc ∧ t = d.tree.put loc (.file part)) := by
  unfold fillFile at h
  split at h
  · cases h
    refine ⟨_, rfl, ?_⟩
    split
    · next loc hlocate => exact .inr ⟨loc, _, hlocate, rfl⟩
    · exact .inl rfl
  · exact ⟨d.tree, (step_error h).1, .inl rfl⟩

/-- Without a fault a file is filled where its path leads. -/
theorem fillFile_eq (hfault : d.faults d.steps = false) (hlocate : d.locate path = .ok loc) :
    fillFile path bytes d = (.ok (), d.after (d.tree.put loc (.file bytes))) := by
  unfold fillFile
  rw [hfault, if_neg Bool.false_ne_true]
  exact step_eq hfault hlocate rfl

/-- A file that was written holds what was written, and all else is as it was. -/
theorem writeFile_ok (habsolute : isAbsolute d.base = true) (h : writeFile path bytes d = (.ok u, d')) :
    ∃ loc, d.locate path = .ok loc ∧ loc ≠ [] ∧ d.tree.isDir loc = false ∧
      d'.base = d.base ∧ d'.faults = d.faults ∧
      ∀ other, d'.tree.find? other = if other = loc then some (.file bytes) else d.tree.find? other := by
  obtain ⟨_, made, hcreate, hfill⟩ := Work.bind_eq_ok.1 h
  obtain ⟨loc, hlocate, hne, hdir, rfl⟩ := createFile_ok hcreate
  obtain ⟨loc', hlocate', rfl⟩ := fillFile_ok hfill
  have heq : loc' = loc :=
    (locate_eq (by exact habsolute) hlocate').trans (locate_eq habsolute hlocate).symm
  subst heq
  refine ⟨loc', hlocate, hne, hdir, rfl, rfl, ?_⟩
  intro other
  by_cases hother : other = loc'
  · simp [after, hother]
  · simp [after, hother]

/-- A file that was not written may be there, but not with all that it should hold. -/
theorem writeFile_error (habsolute : isAbsolute d.base = true)
    (h : writeFile path bytes d = (.error e, d')) : d'.base = d.base ∧ d'.faults = d.faults ∧
      (d'.tree = d.tree ∨ ∃ loc content, d.locate path = .ok loc ∧ d.tree.isDir loc = false ∧
        d'.tree = d.tree.put loc (.file content)) := by
  rcases Work.bind_eq_error.1 h with hcreate | ⟨_, made, hcreate, hfill⟩
  · obtain ⟨rfl, -⟩ := step_error hcreate
    exact ⟨rfl, rfl, .inl rfl⟩
  · obtain ⟨loc, hlocate, -, hdir, rfl⟩ := createFile_ok hcreate
    obtain ⟨t, rfl, hfilled⟩ := fillFile_error hfill
    refine ⟨rfl, rfl, .inr ?_⟩
    rcases hfilled with rfl | ⟨loc', part, hlocate', rfl⟩
    · exact ⟨loc, _, hlocate, hdir, rfl⟩
    · obtain rfl : loc' = loc :=
        (locate_eq (by exact habsolute) hlocate').trans (locate_eq habsolute hlocate).symm
      exact ⟨loc', part, hlocate, hdir, FileTree.put_put _ _ _ _⟩

theorem rename_ok {source target : String} (h : rename source target d = (.ok u, d')) :
    ∃ old loc bytes, d.locate source = .ok old ∧ d.locate target = .ok loc ∧
      d.tree.read? old = some bytes ∧ loc ≠ [] ∧ d.tree.isDir loc = false ∧
      d' = d.after ((d.tree.erase old).put loc (.file bytes)) := by
  obtain ⟨_, _, hget, hstep⟩ := Work.bind_eq_ok.1 h
  cases hget
  obtain ⟨loc, t, hlocate, hchange, rfl⟩ := step_ok hstep
  split at hchange
  · cases hchange
  · next old hold =>
    split at hchange
    · cases hchange
    · next bytes hread =>
      split at hchange
      · cases hchange
      · next hfree =>
        cases hchange
        simp only [Bool.or_eq_true, List.isEmpty_iff, not_or, Bool.not_eq_true] at hfree
        exact ⟨old, loc, bytes, hold, hlocate, hread, hfree.1, hfree.2, rfl⟩

/-- A file that does not take its place leaves all as it was. -/
theorem rename_error {source target : String} (h : rename source target d = (.error e, d')) :
    d' = d.after d.tree := by
  rcases Work.bind_eq_error.1 h with hget | ⟨_, _, hget, hstep⟩
  · cases hget
  · cases hget
    exact (step_error hstep).1

/-- Without a fault, a file that is there takes its place if no directory is there. -/
theorem rename_eq {source target : String} {old : Location} (hfault : d.faults d.steps = false)
    (hold : d.locate source = .ok old) (hnew : d.locate target = .ok loc)
    (hread : d.tree.read? old = some bytes) (hne : loc ≠ []) (hdir : d.tree.isDir loc = false) :
    rename source target d = (.ok (), d.after ((d.tree.erase old).put loc (.file bytes))) := by
  unfold rename
  rw [Work.bind_apply]
  exact step_eq hfault hnew (by simp [hold, hread, hne, hdir])

/-- Without faults, a file that is there is removed. -/
theorem removeFile_eq (hfault : d.faults d.steps = false) (hlocate : d.locate path = .ok loc)
    (hfile : d.tree.isFile loc = true) :
    removeFile path d = (.ok (), d.after (d.tree.erase loc)) :=
  step_eq hfault hlocate (by simp [hfile])

/-- A disk without faults. -/
def Reliable (d : Disk) : Prop := ∀ n, d.faults n = false

/-! ## What is changed at most -/

/-- The second disk came from the first one by work on some files and by making directories. -/
structure Grows (files dirs : Location → Prop) (d d' : Disk) : Prop where
  base : d'.base = d.base
  faults : d'.faults = d.faults
  tree : d.tree.Grows files dirs d'.tree

namespace Grows

variable {files files' dirs dirs' : Location → Prop} {d'' : Disk}

theorem refl (d : Disk) : d.Grows files dirs d := ⟨rfl, rfl, .refl _⟩

/-- A step that changes nothing. -/
theorem after (d : Disk) : d.Grows files dirs (d.after d.tree) := ⟨rfl, rfl, .refl _⟩

theorem trans (h : d.Grows files dirs d') (h' : d'.Grows files dirs d'') : d.Grows files dirs d'' :=
  ⟨h'.base.trans h.base, h'.faults.trans h.faults, h.tree.trans h'.tree⟩

theorem mono (h : d.Grows files dirs d') (hfiles : ∀ loc, files loc → files' loc)
    (hdirs : ∀ loc, dirs loc → dirs' loc) : d.Grows files' dirs' d' :=
  ⟨h.base, h.faults, h.tree.mono hfiles hdirs⟩

theorem reliable (h : d.Grows files dirs d') (hreliable : d.Reliable) : d'.Reliable :=
  fun n => h.faults ▸ hreliable n

theorem isAbsolute (h : d.Grows files dirs d') (hbase : isAbsolute d.base = true) :
    Path.isAbsolute d'.base = true :=
  h.base ▸ hbase

end Grows

/-- Whatever comes of the work on a disk with this base, it works on no files but these and makes
no directories but these. -/
def Confined {ε α : Type} (base : String) (files dirs : Location → Prop)
    (x : ExceptT ε (StateM Disk) α) : Prop :=
  ∀ d : Disk, d.base = base → d.Grows files dirs (x d).2

namespace Confined

variable {ε α β : Type} {files files' dirs dirs' : Location → Prop}
  {x : ExceptT ε (StateM Disk) α} {f : α → ExceptT ε (StateM Disk) β}

theorem pure (a : α) : Confined base files dirs (Pure.pure a : ExceptT ε (StateM Disk) α) :=
  fun d _ => .refl d

theorem throw (e : ε) :
    Confined base files dirs (MonadExcept.throw e : ExceptT ε (StateM Disk) α) :=
  fun d _ => .refl d

theorem get : Confined base files dirs (MonadState.get : ExceptT ε (StateM Disk) Disk) :=
  fun d _ => .refl d

theorem mono (h : Confined base files dirs x) (hfiles : ∀ loc, files loc → files' loc)
    (hdirs : ∀ loc, dirs loc → dirs' loc) : Confined base files' dirs' x :=
  fun d hd => (h d hd).mono hfiles hdirs

theorem bind (hx : Confined base files dirs x) (hf : ∀ a, Confined base files dirs (f a)) :
    Confined base files dirs (x >>= f) := by
  intro d hd
  have hfirst := hx d hd
  rw [Work.bind_apply]
  rcases hresult : x d with ⟨result, t⟩
  rw [hresult] at hfirst
  cases result with
  | ok a => exact hfirst.trans (hf a t (hfirst.base.trans hd))
  | error e => exact hfirst

theorem tryCatch {recover : ε → ExceptT ε (StateM Disk) α} (hx : Confined base files dirs x)
    (hrecover : ∀ e, Confined base files dirs (recover e)) :
    Confined base files dirs (MonadExcept.tryCatch x recover) := by
  intro d hd
  have hfirst := hx d hd
  rw [Work.tryCatch_apply]
  rcases hresult : x d with ⟨result, t⟩
  rw [hresult] at hfirst
  cases result with
  | ok a => exact hfirst
  | error e => exact hfirst.trans (hrecover e t (hfirst.base.trans hd))

/-- A step changes what its path means. -/
theorem step (hbase : isAbsolute base = true)
    (h : ∀ (t t' : FileTree), change t (Location.ofPath base path) = .ok t' → t.Grows files dirs t') :
    Confined base files dirs (Disk.step path change) := by
  intro d hd
  rcases hresult : Disk.step path change d with ⟨result, d'⟩
  cases result with
  | ok u =>
    obtain ⟨loc, t, hlocate, hchange, rfl⟩ := step_ok hresult
    obtain rfl := locate_eq (hd ▸ hbase) hlocate
    exact ⟨rfl, rfl, h d.tree t (hd ▸ hchange)⟩
  | error e =>
    obtain ⟨rfl, -⟩ := step_error hresult
    exact ⟨rfl, rfl, .refl _⟩

end Confined

/-! ## What the paths of some work allow -/

section Confined

variable {dirs : Location → Prop} (hbase : isAbsolute base = true)
include hbase

theorem confined_makeDirectory (path : String) : Confined base (fun _ => False)
    (· = Location.ofPath base path) (makeDirectory path) := by
  refine .step hbase ?_
  intro t t' hchange
  split at hchange
  · cases hchange
  · next hfree =>
    cases hchange
    simp only [Bool.or_eq_true, not_or, Bool.not_eq_true] at hfree
    exact .put_dir (FileTree.find?_of_has hfree.2)

theorem confined_createFile (path : String) :
    Confined base (· = Location.ofPath base path) dirs (createFile path) := by
  refine .step hbase ?_
  intro t t' hchange
  split at hchange
  · cases hchange
  · cases hchange
    exact .put_file _ _ _

theorem confined_fillFile (path : String) (bytes : ByteArray) :
    Confined base (· = Location.ofPath base path) dirs (fillFile path bytes) := by
  intro d hd
  rcases hresult : fillFile path bytes d with ⟨result, d'⟩
  have hleads : ∀ {loc}, d.locate path = .ok loc → loc = Location.ofPath base path :=
    fun hlocate => hd ▸ locate_eq (hd ▸ hbase) hlocate
  cases result with
  | ok u =>
    obtain ⟨loc, hlocate, rfl⟩ := fillFile_ok hresult
    obtain rfl := hleads hlocate
    exact ⟨rfl, rfl, .put_file _ _ _⟩
  | error e =>
    obtain ⟨t, rfl, rfl | ⟨loc, part, hlocate, rfl⟩⟩ := fillFile_error hresult
    · exact ⟨rfl, rfl, .refl _⟩
    · obtain rfl := hleads hlocate
      exact ⟨rfl, rfl, .put_file _ _ _⟩

theorem confined_writeFile (path : String) (bytes : ByteArray) :
    Confined base (· = Location.ofPath base path) dirs (writeFile path bytes) :=
  (confined_createFile hbase path).bind fun _ => confined_fillFile hbase path bytes

theorem confined_sync {files : Location → Prop} (path : String) :
    Confined base files dirs (sync path) := by
  refine .step hbase ?_
  intro t t' hchange
  cases hchange
  exact .refl _

theorem confined_removeFile (path : String) :
    Confined base (· = Location.ofPath base path) dirs (removeFile path) := by
  refine .step hbase ?_
  intro t t' hchange
  split at hchange
  · cases hchange
    exact .erase _ _
  · cases hchange

theorem confined_rename (source target : String) : Confined base
    (fun loc => loc = Location.ofPath base source ∨ loc = Location.ofPath base target) dirs
    (rename source target) := by
  intro d hd
  rcases hresult : rename source target d with ⟨result, d'⟩
  cases result with
  | ok u =>
    obtain ⟨old, loc, bytes, hold, hloc, -, -, -, rfl⟩ := rename_ok hresult
    obtain rfl := locate_eq (hd ▸ hbase) hold
    obtain rfl := locate_eq (hd ▸ hbase) hloc
    refine ⟨rfl, rfl, ?_⟩
    rw [hd]
    exact ((FileTree.Grows.erase _ _).mono (fun _ => .inl) fun _ => id).trans
      ((FileTree.Grows.put_file _ _ _).mono (fun _ => .inr) fun _ => id)
  | error e =>
    obtain rfl := rename_error hresult
    exact ⟨rfl, rfl, .refl _⟩

/-- Directories are made where some path to make them leads, and all paths come from the first one
by going up. -/
theorem confined_makeDirectories (paths : String → Prop)
    (hup : ∀ path parent, paths path → parent? path = some parent → paths parent)
    (hdirs : ∀ path, paths path → dirs (Location.ofPath base path)) (fuel : Nat) :
    ∀ path, paths path → Confined base (fun _ => False) dirs (makeDirectories fuel path) := by
  have hmake : ∀ path, paths path → Confined base (fun _ => False) dirs (makeDirectory path) := by
    intro path hpath
    refine (confined_makeDirectory hbase path).mono (fun _ => id) ?_
    rintro loc rfl
    exact hdirs path hpath
  induction fuel with
  | zero => exact fun path _ => .throw _
  | succ fuel ih =>
    intro path hpath
    have hcheck : ∀ e, Confined base (fun _ => False) dirs
        (do if !(← MonadState.get).isDir path then MonadExcept.throw e : DiskM Unit) := by
      intro e
      refine Confined.get.bind ?_
      intro d
      split
      · exact .throw e
      · exact .pure _
    unfold makeDirectories
    split
    · exact .pure _
    · refine Confined.bind ?_ ?_
      · refine Confined.tryCatch ?_ fun e => .pure _
        exact (hmake path hpath).bind fun _ => .pure _
      · intro made
        split
        · exact .pure _
        · split
          · exact .throw _
          · next parent hparent =>
            refine (ih parent (hup path parent hpath hparent)).bind ?_
            intro _
            exact (hmake path hpath).tryCatch hcheck
        · exact hcheck _

/-- No file changes when directories are made. -/
theorem confined_ensureDirectory (path : String) :
    Confined base (fun _ => False) (fun _ => True) (ensureDirectory path) :=
  confined_makeDirectories hbase (fun _ => True) (fun _ _ _ _ => trivial) (fun _ _ => trivial) _ path
    trivial

/-- The directories that are made for a plain location lie on the way to it. -/
theorem confined_ensureDirectory_toPath (hplain : loc.Plain) :
    Confined base (fun _ => False) (· <+: loc) (ensureDirectory (Location.toPath loc)) := by
  refine confined_makeDirectories hbase (fun path => ∃ above, above <+: loc ∧
    path = Location.toPath above) ?_ ?_ _ _ ⟨loc, List.prefix_rfl, rfl⟩
  · rintro path parent ⟨above, hway, rfl⟩ hparent
    rcases List.eq_nil_or_concat' above with rfl | ⟨above, name, rfl⟩
    · rw [Location.parent?_toPath_nil] at hparent
      cases hparent
    · rw [Location.parent?_toPath (hplain.of_isPrefix hway)] at hparent
      exact ⟨above, (List.prefix_append above [name]).trans hway, (Option.some.inj hparent).symm⟩
  · rintro path ⟨above, hway, rfl⟩
    rw [Location.ofPath_toPath (hplain.of_isPrefix hway)]
    exact hway

end Confined

/-- Without faults, a file that can be removed is gone after it was quietly removed. -/
theorem quietly_removeFile (hreliable : d.Reliable) (habsolute : isAbsolute d.base = true)
    (hplain : loc.Plain)
    (hremovable : ∀ bytes, d.tree.read? loc = some bytes → Storable loc ∧ d.tree.Open loc) :
    ∃ d', quietly (removeFile (Location.toPath loc)) d = (.ok (), d') ∧
      d.Grows (· = loc) (fun _ => False) d' ∧ d'.tree.read? loc = none := by
  have hgrows : d.Grows (· = Location.ofPath d.base (Location.toPath loc)) (fun _ => False)
      (removeFile (Location.toPath loc) d).2 := confined_removeFile habsolute _ d rfl
  rw [Location.ofPath_toPath hplain] at hgrows
  unfold quietly
  rw [Work.tryCatch_apply]
  rcases hresult : removeFile (Location.toPath loc) d with ⟨result, d'⟩
  rw [hresult] at hgrows
  cases result with
  | ok u =>
    obtain ⟨loc', t, hlocate, hchange, rfl⟩ := step_ok hresult
    obtain rfl : loc' = loc :=
      (locate_eq habsolute hlocate).trans (Location.ofPath_toPath hplain d.base)
    split at hchange
    · cases hchange
      exact ⟨_, rfl, hgrows, by simp [after]⟩
    · cases hchange
  | error e =>
    refine ⟨d', rfl, hgrows, ?_⟩
    obtain ⟨rfl, -⟩ := step_error hresult
    show d.tree.read? loc = none
    cases hread : d.tree.read? loc with
    | none => rfl
    | some bytes =>
      -- a file that is there would have been removed
      obtain ⟨hstorable, hopen⟩ := hremovable bytes hread
      have hdone := removeFile_eq (hreliable d.steps) (locate_of_open hplain hstorable hopen hread)
        (FileTree.isFile_iff.2 ⟨bytes, hread⟩)
      rw [hdone] at hresult
      cases hresult

end Disk

end Bindery
