import Mathlib.Data.List.Basic
import Bindery.FileTree

/-!
# Looking up what was put

A tree is known by what is found at every location, and a directory is known by what lies below
it. Putting and removing a node changes what is found at its own location and nowhere else.

* `FileTree.find?_put`, `FileTree.find?_erase` : what is found after a change.
* `FileTree.isDir_iff` : directories, from what is found.
* `Location.Above` : the directories on the way to a location.
* `FileTree.Open` : no file stands on the way to a location.
* `FileTree.Grows` : a tree that came from another by work on some files and by making directories.
-/

namespace Bindery

/-- The first location lies on the way to the second one, and is not the second one. -/
def Location.Above (above loc : Location) : Prop := above <+: loc ∧ above ≠ loc

namespace Location

theorem above_append_singleton {above loc : Location} {name : String} :
    Above above (loc ++ [name]) ↔ above <+: loc := by
  constructor
  · rintro ⟨hway, hne⟩
    rcases List.prefix_concat_iff.1 hway with heq | hway
    · exact absurd heq hne
    · exact hway
  · intro hway
    refine ⟨hway.trans (List.prefix_append loc [name]), ?_⟩
    rintro rfl
    have hlength := hway.length_le
    rw [List.length_append, List.length_singleton] at hlength
    omega

theorem Above.trans_isPrefix {a b c : Location} (h : Above a b) (hbc : b <+: c) : Above a c := by
  refine ⟨h.1.trans hbc, ?_⟩
  rintro rfl
  exact h.2 (h.1.eq_of_length_le hbc.length_le)

end Location

namespace FileTree

variable {t : FileTree} {loc other : Location} {n : Node} {bytes : ByteArray}

/-! ## What is found -/

theorem lookup_filter_self (nodes : List (Location × Node)) (loc : Location) :
    (nodes.filter (·.1 != loc)).lookup loc = none := by
  rw [List.lookup_eq_none_iff]
  intro p hp
  have hne : p.1 ≠ loc := by simpa using (List.mem_filter.1 hp).2
  simpa using Ne.symm hne

theorem lookup_filter_of_ne (nodes : List (Location × Node)) (h : other ≠ loc) :
    (nodes.filter (·.1 != loc)).lookup other = nodes.lookup other := by
  induction nodes with
  | nil => rfl
  | cons p r ih =>
    rcases p with ⟨key, node⟩
    by_cases hp : key = loc
    · have hskip : (other == key) = false := by simpa [hp] using h
      rw [List.filter_cons_of_neg (by simp [hp]), ih]
      simp [List.lookup_cons, hskip]
    · rw [List.filter_cons_of_pos (by simp [hp])]
      simp only [List.lookup_cons]
      rw [ih]

@[simp] theorem find?_put : (t.put loc n).find? other = if other = loc then some n else t.find? other := by
  by_cases h : other = loc
  · simp [h, find?, put]
  · have hskip : (other == loc) = false := by simpa using h
    simp only [find?, put, List.lookup_cons, hskip, if_neg h]
    exact lookup_filter_of_ne t.nodes h

@[simp] theorem find?_erase : (t.erase loc).find? other = if other = loc then none else t.find? other := by
  by_cases h : other = loc
  · subst h
    simpa [find?, erase] using lookup_filter_self t.nodes other
  · simp only [if_neg h]
    exact lookup_filter_of_ne t.nodes h

/-- What is put twice at one location is there as it was put last. -/
theorem put_put (t : FileTree) (loc : Location) (first last : Node) :
    (t.put loc first).put loc last = t.put loc last := by
  simp [put]

theorem read?_eq_some_iff : t.read? loc = some bytes ↔ t.find? loc = some (.file bytes) := by
  unfold read?
  split
  · next content hfind => simp [hfind]
  · next hfind =>
    constructor
    · intro hnone
      cases hnone
    · intro hfile
      exact absurd hfile (hfind bytes)

theorem read?_eq (t : FileTree) (loc : Location) :
    t.read? loc = (t.find? loc).bind fun
      | .file bytes => some bytes
      | .dir => none := by
  unfold read?
  cases t.find? loc with
  | none => rfl
  | some n => cases n <;> rfl

@[simp] theorem read?_put_file :
    (t.put loc (.file bytes)).read? other = if other = loc then some bytes else t.read? other := by
  by_cases h : other = loc
  · simp [read?_eq, h]
  · simp [read?_eq, h]

@[simp] theorem read?_erase :
    (t.erase loc).read? other = if other = loc then none else t.read? other := by
  by_cases h : other = loc
  · simp [read?_eq, h]
  · simp [read?_eq, h]

/-! ## Directories -/

theorem hasBelow_iff : t.hasBelow loc = true ↔ ∃ below n, t.find? below = some n ∧ loc.Above below := by
  simp only [hasBelow, List.any_eq_true, Bool.and_eq_true, bne_iff_ne, List.isPrefixOf_iff_prefix]
  constructor
  · rintro ⟨p, hp, hway, hne⟩
    obtain ⟨n, hn⟩ : ∃ n, t.nodes.lookup p.1 = some n := by
      rw [← Option.isSome_iff_exists, List.lookup_isSome_iff]
      exact ⟨p, hp, by simp⟩
    exact ⟨p.1, n, hn, hway, Ne.symm hne⟩
  · rintro ⟨below, n, hfind, hway, hne⟩
    obtain ⟨before, after, hnodes, -⟩ := List.lookup_eq_some_iff.1 hfind
    have hmem : (below, n) ∈ t.nodes := hnodes ▸ List.mem_append_right _ List.mem_cons_self
    exact ⟨(below, n), hmem, hway, Ne.symm hne⟩

theorem isDir_iff : t.isDir loc = true ↔
    t.read? loc = none ∧ (t.find? loc = some .dir ∨ ∃ below n, t.find? below = some n ∧ loc.Above below) := by
  have hmade : t.isMadeDir loc = true ↔ t.find? loc = some .dir := by
    unfold isMadeDir
    split
    · next h => simp [h]
    · next h => simpa using h
  rw [← hmade, ← hasBelow_iff]
  simp [isDir, isFile]

theorem isFile_iff : t.isFile loc = true ↔ ∃ bytes, t.read? loc = some bytes := by
  simp [isFile, Option.isSome_iff_exists]

/-- Nothing is found where neither a file nor a directory is. -/
theorem find?_of_has (h : t.has loc = false) : t.find? loc = none := by
  simp only [has, Bool.or_eq_false_iff] at h
  cases hfind : t.find? loc with
  | none => rfl
  | some n =>
    cases n with
    | file bytes => simp [isFile, read?_eq, hfind] at h
    | dir =>
      have hdir : t.isDir loc = true := isDir_iff.2 ⟨by simp [read?_eq, hfind], .inl hfind⟩
      simp [hdir] at h

/-- No file stands on the way to a location. -/
def Open (t : FileTree) (loc : Location) : Prop :=
  ∀ above : Location, above ≠ [] → above.Above loc → t.read? above = none

/-- What leads to a file is a directory. -/
theorem Open.isDir (hopen : t.Open loc) (hfile : t.read? loc = some bytes) {above : Location}
    (hne : above ≠ []) (habove : above.Above loc) : t.isDir above = true :=
  isDir_iff.2 ⟨hopen above hne habove, .inr ⟨loc, _, read?_eq_some_iff.1 hfile, habove⟩⟩

/-- The way to a file stays open when files come to no other place than one that is no directory. -/
theorem Open.of_fewer {t' : FileTree} {place : Location} (hopen : t.Open loc)
    (hfile : t.read? loc = some bytes) (hplace : t.isDir place = false)
    (hfewer : ∀ other, other ≠ place → t.read? other = none → t'.read? other = none) :
    t'.Open loc := by
  intro above hne habove
  by_cases heq : above = place
  · have hblocked := hopen.isDir hfile hne habove
    rw [heq, hplace] at hblocked
    cases hblocked
  · exact hfewer above heq (hopen above hne habove)

/-- What leads to a directory is one too, unless a file stands there. -/
theorem isDir_of_above {above : Location} (hdir : t.isDir loc = true) (habove : above.Above loc)
    (hfree : t.read? above = none) : t.isDir above = true := by
  obtain ⟨-, hmade | ⟨below, n, hbelow, hway⟩⟩ := isDir_iff.1 hdir
  · exact isDir_iff.2 ⟨hfree, .inr ⟨loc, _, hmade, habove⟩⟩
  · exact isDir_iff.2 ⟨hfree, .inr ⟨below, n, hbelow, habove.trans_isPrefix hway.1⟩⟩

/-- No file stands at a location or on the way to it. -/
def Passable (t : FileTree) (loc : Location) : Prop :=
  ∀ above : Location, above ≠ [] → above <+: loc → t.read? above = none

theorem open_append_iff {name : String} : t.Open (loc ++ [name]) ↔ t.Passable loc := by
  simp only [Open, Passable, Location.above_append_singleton]

theorem Passable.of_isPrefix {above : Location} (h : t.Passable loc) (hway : above <+: loc) :
    t.Passable above :=
  fun other hne hother => h other hne (hother.trans hway)

/-! ## Growth -/

/-- The second tree came from the first one by work on some files, and by making directories where
nothing was. -/
structure Grows (files dirs : Location → Prop) (t t' : FileTree) : Prop where
  kept : ∀ loc, ¬files loc → t'.find? loc = t.find? loc ∨
    t.find? loc = none ∧ t'.find? loc = some .dir ∧ dirs loc
  made : ∀ loc, t'.find? loc = some .dir → t.find? loc = some .dir ∨ dirs loc

namespace Grows

variable {files files' dirs dirs' : Location → Prop} {t' t'' : FileTree}

theorem refl (t : FileTree) : t.Grows files dirs t := ⟨fun _ _ => .inl rfl, fun _ => .inl⟩

theorem trans (h : t.Grows files dirs t') (h' : t'.Grows files dirs t'') :
    t.Grows files dirs t'' := by
  constructor
  · intro loc hloc
    rcases h.kept loc hloc with hsame | ⟨hnone, hdir, hmade⟩
    · rcases h'.kept loc hloc with hsame' | ⟨hnone, hdir, hmade⟩
      · exact .inl (hsame'.trans hsame)
      · exact .inr ⟨hsame ▸ hnone, hdir, hmade⟩
    · rcases h'.kept loc hloc with hsame' | ⟨hnone', -, -⟩
      · exact .inr ⟨hnone, hsame'.trans hdir, hmade⟩
      · rw [hdir] at hnone'
        cases hnone'
  · intro loc hdir
    rcases h'.made loc hdir with hbefore | hmade
    · exact h.made loc hbefore
    · exact .inr hmade

theorem mono (h : t.Grows files dirs t') (hfiles : ∀ loc, files loc → files' loc)
    (hdirs : ∀ loc, dirs loc → dirs' loc) : t.Grows files' dirs' t' := by
  constructor
  · intro loc hloc
    rcases h.kept loc (fun hin => hloc (hfiles loc hin)) with hsame | ⟨hnone, hdir, hmade⟩
    · exact .inl hsame
    · exact .inr ⟨hnone, hdir, hdirs loc hmade⟩
  · exact fun loc hdir => (h.made loc hdir).imp_right (hdirs loc)

/-- What was found where no file was worked on is found there still. -/
theorem found (h : t.Grows files dirs t') (hloc : ¬files loc) (hfound : t.find? loc = some n) :
    t'.find? loc = some n := by
  rcases h.kept loc hloc with hsame | ⟨hnone, -, -⟩
  · rw [hsame, hfound]
  · rw [hnone] at hfound
    cases hfound

/-- Files that were not worked on are as they were. -/
theorem read?_eq (h : t.Grows files dirs t') (hloc : ¬files loc) :
    t'.read? loc = t.read? loc := by
  rcases h.kept loc hloc with hsame | ⟨hnone, hdir, -⟩
  · simp [FileTree.read?_eq, hsame]
  · simp [FileTree.read?_eq, hnone, hdir]

/-- A directory where no file was before was one before, or was made, or holds what was worked
on. -/
theorem isDir_cases (h : t.Grows files dirs t')
    (hfiles : ∀ loc above : Location, files loc → above.Above loc → dirs above)
    (hdirs : ∀ loc above : Location, dirs loc → above.Above loc → dirs above)
    (hread : t.read? loc = none) (hdir : t'.isDir loc = true) : t.isDir loc = true ∨ dirs loc := by
  obtain ⟨-, hmade | ⟨below, n, hbelow, habove⟩⟩ := isDir_iff.1 hdir
  · rcases h.made loc hmade with hbefore | hnew
    · exact .inl (isDir_iff.2 ⟨hread, .inl hbefore⟩)
    · exact .inr hnew
  · by_cases hwork : files below
    · exact .inr (hfiles below loc hwork habove)
    · rcases h.kept below hwork with hsame | ⟨-, -, hnew⟩
      · exact .inl (isDir_iff.2 ⟨hread, .inr ⟨below, n, hsame ▸ hbelow, habove⟩⟩)
      · exact .inr (hdirs below loc hnew habove)

/-- Where a directory is and no file was worked on, no file was before. -/
theorem read?_eq_none (h : t.Grows files dirs t') (hloc : ¬files loc) (hdir : t'.isDir loc = true) :
    t.read? loc = none :=
  (h.read?_eq hloc).symm.trans (isDir_iff.1 hdir).1

/-- What was no directory stays none where nothing is made or worked on. -/
theorem isDir_eq_false (h : t.Grows files dirs t')
    (hfiles : ∀ loc above : Location, files loc → above.Above loc → dirs above)
    (hdirs : ∀ loc above : Location, dirs loc → above.Above loc → dirs above)
    (hloc : ¬files loc) (hnew : ¬dirs loc) (hdir : t.isDir loc = false) : t'.isDir loc = false := by
  by_contra hbecame
  rw [Bool.not_eq_false] at hbecame
  rcases h.isDir_cases hfiles hdirs (h.read?_eq_none hloc hbecame) hbecame with hbefore | hmade
  · rw [hdir] at hbefore
    cases hbefore
  · exact hnew hmade

theorem put_file (t : FileTree) (loc : Location) (bytes : ByteArray) :
    t.Grows (· = loc) dirs (t.put loc (.file bytes)) := by
  constructor
  · intro other hother
    simp [hother]
  · intro other hdir
    by_cases h : other = loc
    · simp [h] at hdir
    · exact .inl (by simpa [h] using hdir)

theorem put_dir (hfree : t.find? loc = none) : t.Grows files (· = loc) (t.put loc .dir) := by
  constructor
  · intro other _
    by_cases h : other = loc
    · exact .inr ⟨h ▸ hfree, by simp [h], h⟩
    · simp [h]
  · intro other hdir
    by_cases h : other = loc
    · exact .inr h
    · exact .inl (by simpa [h] using hdir)

theorem erase (t : FileTree) (loc : Location) : t.Grows (· = loc) dirs (t.erase loc) := by
  constructor
  · intro other hother
    simp [hother]
  · intro other hdir
    by_cases h : other = loc
    · simp [h] at hdir
    · exact .inl (by simpa [h] using hdir)

end Grows

/-! ## Known directories -/

/-- All directories of a tree are known: they are these, and no file stands in the place of one. -/
structure Within (t : FileTree) (dirs : Location → Prop) : Prop where
  above : ∀ loc n, t.find? loc = some n → ∀ above : Location, above.Above loc → dirs above
  made : ∀ loc, t.find? loc = some .dir → dirs loc
  free : ∀ loc, dirs loc → loc ≠ [] → t.read? loc = none

namespace Within

variable {files dirs : Location → Prop} {t' : FileTree}

theorem empty : FileTree.empty.Within dirs := by
  constructor <;> simp [FileTree.empty, find?, read?]

theorem of_isDir (h : t.Within dirs) (hdir : t.isDir loc = true) : dirs loc := by
  obtain ⟨-, hmade | ⟨below, n, hbelow, habove⟩⟩ := isDir_iff.1 hdir
  · exact h.made loc hmade
  · exact h.above below n hbelow loc habove

/-- Work on files in known directories makes no others. -/
theorem of_grows (h : t.Within dirs) (hgrows : t.Grows files dirs t')
    (hfiles : ∀ loc above : Location, files loc → above.Above loc → dirs above)
    (hdirs : ∀ loc above : Location, dirs loc → above.Above loc → dirs above)
    (hapart : ∀ loc, files loc → ¬dirs loc) : t'.Within dirs := by
  constructor
  · intro loc n hfind above habove
    by_cases hwork : files loc
    · exact hfiles loc above hwork habove
    · rcases hgrows.kept loc hwork with hsame | ⟨-, -, hnew⟩
      · exact h.above loc n (hsame ▸ hfind) above habove
      · exact hdirs loc above hnew habove
  · intro loc hdir
    rcases hgrows.made loc hdir with hbefore | hnew
    · exact h.made loc hbefore
    · exact hnew
  · intro loc hloc hne
    rw [hgrows.read?_eq fun hwork => hapart loc hwork hloc]
    exact h.free loc hloc hne

end Within

end FileTree

end Bindery
