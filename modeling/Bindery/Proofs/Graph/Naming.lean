import Bindery.Proofs.Graph.Lookup

/-!
# Files and their ids

The id of a file is the text of its path below the root, or of its whole path when it lies
elsewhere. That text leads back to the file unless it is changed on the way: a backslash becomes a
slash, blank text gives no id, and the word for what could not be found makes an id that is never
read. Files without these oddities and their ids correspond to one another.

* `Location.ofPath_join_slashed` : going on from an absolute path by some names.
* `ModuleId.Nameable` : files whose ids lead back to them.
* `ModuleId.exists_ofLocation?` : the id of such a file.
-/

namespace Bindery

namespace Path

variable {base path : String} {names : List String}

/-! ## Paths behind other paths -/

theorem segments_join (hbase : base ≠ "") (hpath : isAbsolute path = false) :
    segments (join base path) = segments base ++ segments path := by
  unfold join
  rw [if_neg (by simp [hpath]), if_neg hbase]
  split
  · next hlast =>
    -- the base ends with a separator, behind which there is no name
    obtain ⟨start, hstart⟩ := List.getLast?_eq_some_iff.1 hlast
    have hsplit : base = String.ofList start ++ "/" ++ "" := String.toList_inj.1 (by simp [hstart])
    have hjoined : base ++ path = String.ofList start ++ "/" ++ path :=
      String.toList_inj.1 (by simp [hstart])
    have hnone : segments "" = [] := by decide
    rw [hjoined, segments_append_slash, hsplit, segments_append_slash, hnone, List.append_nil]
  · exact segments_append_slash base path

theorem components_join (hbase : isAbsolute base = true) (hpath : isAbsolute path = false) :
    components (join base path) = components base ++ (segments path).map .ofSegment := by
  have hempty : base ≠ "" := by
    rintro rfl
    cases hbase
  rw [components_of_isAbsolute (isAbsolute_join hbase path), components_of_isAbsolute hbase,
    segments_join hempty hpath, List.map_append, List.cons_append]

theorem splitOn_slashed_of_notMem (h : ∀ name ∈ names, '/' ∉ name.toList) (hne : names ≠ []) :
    (slashed names).toList.splitOn '/' = names.map String.toList := by
  rw [toList_slashed]
  refine List.splitOn_intercalate '/' ?_ (by simpa using hne)
  intro stretch hstretch
  obtain ⟨name, hname, rfl⟩ := List.mem_map.1 hstretch
  exact h name hname

/-- Texts with separators between them are read back, ways up among them. -/
theorem segments_slashed_of_kept (h : ∀ name ∈ names, name ≠ "" ∧ name ≠ "." ∧ '/' ∉ name.toList)
    (hne : names ≠ []) : segments (slashed names) = names := by
  have hnames : (names.map String.toList).map String.ofList = names := by simp [Function.comp_def]
  rw [segments, splitOn_slashed_of_notMem (fun name hname => (h name hname).2.2) hne, hnames]
  refine List.filter_eq_self.2 ?_
  intro name hname
  simp [(h name hname).1, (h name hname).2.1]

theorem splitOn_slashed (h : ∀ name ∈ names, IsName name) (hne : names ≠ []) :
    (slashed names).toList.splitOn '/' = names.map String.toList :=
  splitOn_slashed_of_notMem (fun name hname => (h name hname).2.2.2) hne

theorem segments_slashed (h : ∀ name ∈ names, IsName name) (hne : names ≠ []) :
    segments (slashed names) = names := by
  refine segments_slashed_of_kept ?_ hne
  intro name hname
  obtain ⟨hempty, hpoint, -, hslash⟩ := h name hname
  exact ⟨hempty, hpoint, hslash⟩

/-- Names with separators between them begin with a name. -/
theorem exists_name_of_slashed (h : ∀ name ∈ names, IsName name) (hne : names ≠ [])
    (stretch : List Char) {rest : List Char} (htext : (slashed names).toList = stretch ++ '/' :: rest) :
    ∃ name ∈ names, ∃ more, stretch.splitOn '/' = name.toList :: more := by
  have hsplit := splitOn_slashed h hne
  rw [htext, List.splitOn_append_cons_self] at hsplit
  cases hfirst : stretch.splitOn '/' with
  | nil => exact absurd hfirst (List.splitOn_ne_nil _ _)
  | cons first more =>
    cases names with
    | nil => exact absurd rfl hne
    | cons name r =>
      rw [hfirst, List.cons_append, List.map_cons] at hsplit
      exact ⟨name, List.mem_cons_self, more, by rw [(List.cons.inj hsplit).1]⟩

theorem isAbsolute_slashed (h : ∀ name ∈ names, IsName name) (hne : names ≠ []) :
    isAbsolute (slashed names) = false := by
  rw [← Bool.not_eq_true]
  intro habsolute
  obtain ⟨rest, hrest⟩ := isAbsolute_iff.1 habsolute
  obtain ⟨name, hname, more, hsplit⟩ := exists_name_of_slashed h hne [] hrest
  have hempty : name.toList = [] := by
    rw [List.splitOn_nil] at hsplit
    exact (List.cons.inj hsplit).1.symm
  exact (h name hname).1 (String.toList_eq_nil_iff.1 hempty)

theorem startsHere_slashed (h : ∀ name ∈ names, IsName name) (hne : names ≠ []) :
    startsHere (slashed names) = false := by
  unfold startsHere
  split
  · next hpoint =>
    have hsplit := splitOn_slashed h hne
    rw [hpoint] at hsplit
    cases names with
    | nil => exact absurd rfl hne
    | cons name r =>
      have hname : name.toList = ['.'] := (List.cons.inj hsplit).1.symm
      exact absurd (String.toList_inj.1 hname) (h name List.mem_cons_self).2.1
  · next rest hrest =>
    obtain ⟨name, hname, more, hsplit⟩ := exists_name_of_slashed h hne ['.'] hrest
    have hpoint : name.toList = ['.'] := (List.cons.inj hsplit).1.symm
    exact absurd (String.toList_inj.1 hpoint) (h name hname).2.1
  · rfl

theorem map_ofSegment (h : ∀ name ∈ names, IsName name) :
    names.map Component.ofSegment = names.map .name := by
  refine List.map_congr_left ?_
  intro name hname
  simp [Component.ofSegment, (h name hname).2.2.1]

theorem components_slashed (h : ∀ name ∈ names, IsName name) (hne : names ≠ []) :
    components (slashed names) = names.map .name := by
  simp [components, isAbsolute_slashed h hne, startsHere_slashed h hne, segments_slashed h hne,
    map_ofSegment h]

/-- Names are kept as they are when a path is cleaned. -/
theorem foldl_step_map_name (names : List String) (done : List Component) :
    (names.map Component.name).foldl step done = (names.map Component.name).reverse ++ done := by
  induction names generalizing done with
  | nil => rfl
  | cons name r ih => simp [step, ih]

theorem ofComponents_map_name (names : List String) :
    ofComponents (names.map .name) = slashed names := by
  have htexts : (names.map Component.name).map Component.text = names := by
    rw [List.map_map]
    exact List.map_id names
  cases names with
  | nil => rfl
  | cons name r => exact congrArg slashed htexts

theorem clean_slashed (h : ∀ name ∈ names, IsName name) (hne : names ≠ []) :
    clean (slashed names) = slashed names := by
  have hclean : cleanComponents (components (slashed names)) = names.map .name := by
    rw [cleanComponents, components_slashed h hne, foldl_step_map_name]
    simp
  have htext := ofComponents_map_name names
  unfold clean
  rw [hclean]
  cases names with
  | nil => exact absurd rfl hne
  | cons name r => exact htext

end Path

namespace Location

open Path

/-- A path whose components go on from those of an absolute one by some names leads below what that one
means. -/
theorem ofPath_eq_append {root path : String} {below : Location} (hroot : isAbsolute root = true)
    (hpath : isAbsolute path = true) (h : components path = components root ++ below.map .name)
    (base : String) : ofPath base path = ofPath base root ++ below := by
  have hclean : cleanComponents (components path) =
      cleanComponents (components root) ++ below.map .name := by
    rw [cleanComponents, h, List.foldl_append, foldl_step_map_name, cleanComponents]
    simp
  rw [ofPath, join_of_isAbsolute hpath, hclean, List.filterMap_append, ofPath,
    join_of_isAbsolute hroot, List.filterMap_map]
  congr 1
  exact List.filterMap_some

/-- Going on by some names from an absolute path leads below what the path means. -/
theorem ofPath_join_slashed {root : String} {below : Location} (hroot : isAbsolute root = true)
    (hplain : below.Plain) (hne : below ≠ []) (base : String) :
    ofPath base (join root (slashed below)) = ofPath base root ++ below := by
  have hempty : root ≠ "" := by
    rintro rfl
    cases hroot
  have hjoin := isAbsolute_join hroot (slashed below)
  refine ofPath_eq_append hroot hjoin ?_ base
  rw [components_of_isAbsolute hjoin, components_of_isAbsolute hroot,
    segments_join hempty (isAbsolute_slashed hplain hne), segments_slashed hplain hne,
    List.map_append, map_ofSegment hplain, List.cons_append]

end Location

namespace ModuleId

open Path

variable {root : String} {loc : Location}

/-- What a file is called: its path below the root, or its whole path when it lies elsewhere. -/
def namingText (root : String) (loc : Location) : String :=
  (stripBase? (clean root) (Location.toPath loc)).getD (Location.toPath loc)

/-- The name of a file leads back to it: it has no backslash, is not blank, and does not begin with
the word for what could not be found. -/
structure Nameable (root : String) (loc : Location) : Prop where
  forward : '\\' ∉ (namingText root loc).toList
  notBlank : Text.isBlankText (namingText root loc) = false
  unreserved : missingMark.toList.isPrefixOf (namingText root loc).toList = false

instance (root : String) (loc : Location) : Decidable (Nameable root loc) :=
  decidable_of_iff ('\\' ∉ (namingText root loc).toList ∧
      Text.isBlankText (namingText root loc) = false ∧
      missingMark.toList.isPrefixOf (namingText root loc).toList = false)
    ⟨fun ⟨hforward, hblank, hunreserved⟩ => ⟨hforward, hblank, hunreserved⟩,
      fun ⟨hforward, hblank, hunreserved⟩ => ⟨hforward, hblank, hunreserved⟩⟩

theorem ofLocation?_eq_ofText? (root : String) (loc : Location) :
    ofLocation? root loc = ofText? (namingText root loc) := by
  unfold ofLocation? ofCleaned? namingText
  rw [Location.ofComponents_root]
  split
  · next relative hrelative => rw [hrelative, Option.getD_some]
  · next hnone => rw [hnone, Option.getD_none]

/-- A file lies below the root, and is called by the names behind it, or is called by its path. -/
theorem namingText_spec (hroot : isAbsolute root = true) (hplain : loc.Plain) (base : String) :
    (∃ below, loc = Location.ofPath base root ++ below ∧ namingText root loc = slashed below) ∨
      namingText root loc = Location.toPath loc := by
  unfold namingText stripBase?
  rw [Location.clean_eq_toPath hroot base,
    Location.components_toPath (Location.plain_ofPath base root),
    Location.components_toPath hplain]
  cases hstrip : stripComponents? (.root :: (Location.ofPath base root).map .name)
      (.root :: loc.map .name) with
  | none => exact .inr rfl
  | some rest =>
    have happend := (List.cons.inj (stripComponents?_eq_some_iff.1 hstrip)).2
    obtain ⟨above, below, rfl, habove, rfl⟩ := List.map_eq_append_iff.1 happend
    have hinjective : ∀ a b, Component.name a = .name b → a = b := fun a b => Component.name.inj
    exact .inl ⟨below, by rw [(List.map_inj_right hinjective).1 habove], ofComponents_map_name below⟩

theorem forward_eq_self {text : String} (h : '\\' ∉ text.toList) : ModuleId.forward text = text := by
  have hsame : (text.toList.map fun c => if c = '\\' then '/' else c) = text.toList := by
    refine (List.map_congr_left ?_).trans (List.map_id _)
    intro c hc
    rw [if_neg]
    · rfl
    · rintro rfl
      exact h hc
  rw [ModuleId.forward, hsame, String.ofList_toList]

/-- Text that nothing is changed about is taken as it is. -/
theorem ofText?_of_clean {text : String} (hforward : '\\' ∉ text.toList)
    (hblank : Text.isBlankText text = false)
    (hunreserved : missingMark.toList.isPrefixOf text.toList = false)
    (hclean : clean text = text) (hhere : text ≠ ".") : ofText? text = some ⟨text⟩ := by
  have hempty : text ≠ "" := by
    rintro rfl
    cases hblank
  simp [ofText?, forward_eq_self hforward, hblank, hunreserved, hclean, hempty, hhere]

/-- Every nameable file has an id, which is not reserved and leads back to the file. -/
theorem exists_ofLocation? (hroot : isAbsolute root = true) (hplain : loc.Plain)
    (h : Nameable root loc) (base : String) :
    ∃ id, ofLocation? root loc = some id ∧ id.isMissing = false ∧
      Location.ofPath base (id.toPath root) = loc := by
  have htext : ∀ text, namingText root loc = text → clean text = text → text ≠ "." →
      Location.ofPath base (join root text) = loc →
      ∃ id, ofLocation? root loc = some id ∧ id.isMissing = false ∧
        Location.ofPath base (id.toPath root) = loc := by
    rintro _ rfl hclean hhere hback
    refine ⟨⟨namingText root loc⟩, ?_, h.unreserved, hback⟩
    rw [ofLocation?_eq_ofText?]
    exact ofText?_of_clean h.forward h.notBlank h.unreserved hclean hhere
  rcases namingText_spec hroot hplain base with ⟨below, hloc, hbelow⟩ | hwhole
  · have hnames : below.Plain := fun name hname =>
      hplain name (hloc ▸ List.mem_append_right _ hname)
    have hne : below ≠ [] := by
      rintro rfl
      have hblank := h.notBlank
      rw [hbelow] at hblank
      cases hblank
    refine htext _ hbelow (clean_slashed hnames hne) ?_ ?_
    · intro hhere
      have hstarts := startsHere_slashed hnames hne
      rw [hhere] at hstarts
      cases hstarts
    · rw [Location.ofPath_join_slashed hroot hnames hne base, hloc]
  · have habsolute := Location.isAbsolute_toPath loc
    refine htext _ hwhole ?_ ?_ ?_
    · rw [Location.clean_eq_toPath habsolute base, Location.ofPath_toPath hplain]
    · intro hhere
      rw [hhere] at habsolute
      cases habsolute
    · rw [join_of_isAbsolute habsolute, Location.ofPath_toPath hplain]

end ModuleId

end Bindery
