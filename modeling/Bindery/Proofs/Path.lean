import Bindery.Project
import Bindery.Proofs.Text.Lines

/-!
# Absolute paths

Cleaning an absolute path leaves the root and names, and so exactly what the path means as a
location. Continuing an absolute path, going up from it and cleaning it give absolute paths again.

* `Path.cleanComponents_of_isAbsolute`, `Path.clean_of_isAbsolute` : cleaned absolute paths.
* `Path.isAbsolute_join`, `Path.isAbsolute_clean`, `Path.isAbsolute_of_parent?` : staying absolute.
* `Location.Plain` : locations whose names are names for paths as well.
* `Location.components_toPath`, `Location.ofPath_toPath`, `Location.parent?_toPath` : reading the
  text of such a location.
-/

namespace Bindery

namespace Path

variable {base path : String}

/-! ## Staying absolute -/

theorem isAbsolute_iff : isAbsolute path = true ↔ ∃ r, path.toList = '/' :: r := by
  simp [isAbsolute, List.head?_eq_some_iff]

theorem isAbsolute_append (h : isAbsolute base = true) (more : String) :
    isAbsolute (base ++ more) = true := by
  rcases isAbsolute_iff.1 h with ⟨r, hr⟩
  exact isAbsolute_iff.2 ⟨r ++ more.toList, by simp [hr]⟩

theorem isAbsolute_join (h : isAbsolute base = true) (path : String) :
    isAbsolute (join base path) = true := by
  unfold join
  split
  · next hpath => exact hpath
  · split
    · next hempty => simp [hempty, isAbsolute] at h
    · split
      · exact isAbsolute_append h path
      · rw [String.append_assoc]
        exact isAbsolute_append h _

theorem join_of_isAbsolute (h : isAbsolute path = true) (base : String) :
    join base path = path := by
  simp [join, h]

/-- A path is its own continuation of a base exactly when it is absolute or the base is empty. -/
theorem join_eq_self_iff {base path : String} :
    Path.join base path = path ↔ Path.isAbsolute path = true ∨ base = "" := by
  have hlonger : ∀ start : String, start ≠ "" → start ++ path ≠ path := by
    intro start hstart heq
    have hlength := congrArg String.length heq
    rw [String.length_append] at hlength
    exact hstart (String.length_eq_zero_iff.1 (by omega))
  constructor
  · intro h
    by_cases habsolute : isAbsolute path = true
    · exact .inl habsolute
    · by_cases hbase : base = ""
      · exact .inr hbase
      · unfold join at h
        rw [if_neg habsolute, if_neg hbase] at h
        split at h
        · exact absurd h (hlonger base hbase)
        · exact absurd h (hlonger (base ++ "/") (by simp))
  · rintro (h | rfl)
    · exact join_of_isAbsolute h base
    · simp [join]

/-- A path that is given by the root and further components is absolute. -/
theorem isAbsolute_ofComponents (cs : List Component) :
    isAbsolute (ofComponents (.root :: cs)) = true := by
  cases cs with
  | nil => rfl
  | cons c r =>
    refine isAbsolute_iff.2 ⟨(slashed ((c :: r).map Component.text)).toList, ?_⟩
    simp [ofComponents, slashed, Component.text]

theorem components_of_isAbsolute (h : isAbsolute path = true) :
    components path = .root :: (segments path).map Component.ofSegment := by
  simp [components, h]

theorem root_notMem_map_ofSegment (segments : List String) :
    .root ∉ segments.map Component.ofSegment := by
  intro hroot
  obtain ⟨segment, -, hsegment⟩ := List.mem_map.1 hroot
  unfold Component.ofSegment at hsegment
  split at hsegment
  · cases hsegment
  · cases hsegment

theorem root_notMem_components (h : isAbsolute path = false) :
    .root ∉ components path := by
  simp only [components, h, Bool.false_eq_true, if_false]
  split
  · simpa using root_notMem_map_ofSegment (segments path)
  · exact root_notMem_map_ofSegment (segments path)

/-- Only an absolute path begins with the root. -/
theorem isAbsolute_of_components {rest : List Component} (h : components path = .root :: rest) :
    isAbsolute path = true := by
  rw [← Bool.not_eq_false]
  intro hrelative
  exact root_notMem_components hrelative (h ▸ List.mem_cons_self)

/-- Components that are stripped stand in front of what is left. -/
theorem stripComponents?_eq_some_iff {base cs rest : List Component} :
    stripComponents? base cs = some rest ↔ cs = base ++ rest := by
  induction base generalizing cs with
  | nil => simp [stripComponents?]
  | cons b r ih =>
    cases cs with
    | nil => simp [stripComponents?]
    | cons c cs =>
      by_cases h : b = c
      · simp [stripComponents?, h, ih]
      · simp [stripComponents?, h, Ne.symm h]

/-- The directory of a file with an absolute path has an absolute path. -/
theorem isAbsolute_of_parent? (h : isAbsolute path = true) {directory : String}
    (hparent : parent? path = some directory) : isAbsolute directory = true := by
  unfold parent? at hparent
  split at hparent
  · simp at hparent
  · simp at hparent
  · next last hlast hnotroot =>
    obtain rfl := Option.some.inj hparent
    rw [components_of_isAbsolute h] at hnotroot ⊢
    cases hsegments : (segments path).map Component.ofSegment with
    | nil => exact absurd (by simpa [hsegments] using hnotroot) (Ne.symm (by simpa using hlast))
    | cons c r =>
      rw [List.dropLast_cons_of_ne_nil (by simp)]
      exact isAbsolute_ofComponents _

/-! ## Cleaned paths -/

/-- Behind the root a cleaned path has only names: going up stops at the root. -/
theorem exists_names_foldl_step (segments names : List String) :
    ∃ names' : List String,
      (segments.map Component.ofSegment).foldl step (names.map .name ++ [.root]) =
        names'.map Component.name ++ [.root] := by
  induction segments generalizing names with
  | nil => exact ⟨names, rfl⟩
  | cons s r ih =>
    simp only [List.map_cons, List.foldl_cons, Component.ofSegment]
    split
    · cases names with
      | nil => exact ih []
      | cons _ above => exact ih above
    · exact ih (s :: names)

theorem cleanComponents_of_isAbsolute (h : isAbsolute path = true) :
    ∃ names : List String, cleanComponents (components path) = .root :: names.map .name := by
  rcases exists_names_foldl_step (segments path) [] with ⟨names, hnames⟩
  refine ⟨names.reverse, ?_⟩
  have hfold : (components path).foldl step [] = names.map Component.name ++ [.root] := by
    rw [components_of_isAbsolute h]
    exact hnames
  simp [cleanComponents, hfold]

theorem isAbsolute_clean (h : isAbsolute path = true) : isAbsolute (clean path) = true := by
  rcases cleanComponents_of_isAbsolute h with ⟨names, hnames⟩
  simp only [clean, hnames]
  exact isAbsolute_ofComponents _

/-- A cleaned absolute path is the text of its location, wherever relative paths are seen from. -/
theorem clean_of_isAbsolute (h : isAbsolute path = true) (directory : String) :
    clean path = ofComponents (.root :: (Location.ofPath directory path).map .name) := by
  rcases cleanComponents_of_isAbsolute h with ⟨names, hnames⟩
  have hlocation : Location.ofPath directory path = names := by
    rw [Location.ofPath, join_of_isAbsolute h, hnames, List.filterMap_cons, List.filterMap_map]
    exact List.filterMap_some
  simp only [clean, hnames, hlocation]

/-- Seen from an absolute directory, a path means what it means behind the directory. -/
theorem ofPath_join (h : isAbsolute base = true) (path : String) :
    Location.ofPath base (join base path) = Location.ofPath base path := by
  rw [Location.ofPath, join_of_isAbsolute (isAbsolute_join h path), Location.ofPath]

/-! ## The text of a location -/

/-- A name that a path can have between its separators. -/
def IsName (name : String) : Prop := name ≠ "" ∧ name ≠ "." ∧ name ≠ ".." ∧ '/' ∉ name.toList

theorem toList_slashed (names : List String) :
    (slashed names).toList = ['/'].intercalate (names.map String.toList) := by
  induction names with
  | nil => rfl
  | cons name r ih =>
    cases r with
    | nil => simp [slashed]
    | cons next r =>
      simp only [slashed, String.toList_append, ih, List.map_cons]
      simp [List.intercalate_cons_cons]

theorem slashed_append_singleton {names : List String} (h : names ≠ []) (name : String) :
    slashed (names ++ [name]) = slashed names ++ "/" ++ name := by
  induction names with
  | nil => exact absurd rfl h
  | cons first r ih =>
    cases r with
    | nil => rfl
    | cons next r =>
      have hrest := ih (List.cons_ne_nil next r)
      simp only [List.cons_append] at hrest ⊢
      simp only [slashed, hrest, String.append_assoc]

theorem notMem_of_mem_splitOn {c : Char} {text stretch : List Char}
    (h : stretch ∈ text.splitOn c) : c ∉ stretch := by
  induction text generalizing stretch with
  | nil =>
    obtain rfl : stretch = [] := by simpa using h
    exact List.not_mem_nil
  | cons x r ih =>
    rw [List.splitOn_cons_eq_if_modifyHead] at h
    split at h
    · rcases List.mem_cons.1 h with rfl | h
      · exact List.not_mem_nil
      · exact ih h
    · next hx =>
      cases hparts : r.splitOn c with
      | nil => exact absurd hparts (List.splitOn_ne_nil c r)
      | cons first others =>
        rw [hparts, List.modifyHead_cons] at h
        rcases List.mem_cons.1 h with rfl | h
        · have hfirst : c ∉ first := ih (hparts ▸ List.mem_cons_self)
          simp only [List.mem_cons, not_or]
          exact ⟨fun heq => hx (by simp [heq]), hfirst⟩
        · exact ih (hparts ▸ List.mem_cons_of_mem first h)

/-- What stands between separators is a name, or leads up. -/
theorem segment_spec {segment : String} (h : segment ∈ segments path) :
    segment ≠ "" ∧ segment ≠ "." ∧ '/' ∉ segment.toList := by
  obtain ⟨hmem, hkept⟩ := List.mem_filter.1 h
  obtain ⟨stretch, hstretch, rfl⟩ := List.mem_map.1 hmem
  simp only [Bool.and_eq_true, bne_iff_ne] at hkept
  refine ⟨hkept.1, hkept.2, ?_⟩
  rw [String.toList_ofList]
  exact notMem_of_mem_splitOn hstretch

/-- The names of a path that goes on behind a separator. -/
theorem segments_append_slash (base path : String) :
    segments (base ++ "/" ++ path) = segments base ++ segments path := by
  have htext : (base ++ "/" ++ path).toList = base.toList ++ '/' :: path.toList := by simp
  simp only [segments, htext, List.splitOn_append_cons_self, List.map_append, List.filter_append]

theorem segments_of_isName {name : String} (h : IsName name) : segments name = [name] := by
  obtain ⟨hne, hpoint, -, hslash⟩ := h
  have hsplit := Text.splitOn_of_notMem hslash
  simp [segments, hsplit, hne, hpoint]

theorem isAbsolute_of_isName {name : String} (h : IsName name) : isAbsolute name = false := by
  rw [isAbsolute, decide_eq_false_iff_not]
  intro hhead
  exact h.2.2.2 (List.mem_of_head? hhead)

/-- There is nothing to clean about a name. -/
theorem clean_of_isName {name : String} (h : IsName name) : clean name = name := by
  have hhere : startsHere name = false := by
    unfold startsHere
    split
    · next heq => exact absurd (String.toList_inj.1 heq) h.2.1
    · next heq => exact absurd (heq ▸ by simp) h.2.2.2
    · rfl
  have hcomponents : components name = [.name name] := by
    simp [components, isAbsolute_of_isName h, hhere, segments_of_isName h, Component.ofSegment, h.2.2.1]
  rw [clean, hcomponents]
  rfl

theorem mem_segments_of_mem_components {name : String} (h : .name name ∈ components path) :
    name ∈ segments path ∧ name ≠ ".." := by
  have hsegment : .name name ∈ (segments path).map Component.ofSegment := by
    unfold components at h
    split at h
    · simpa using h
    · split at h
      · simpa using h
      · exact h
  obtain ⟨segment, hmem, hofSegment⟩ := List.mem_map.1 hsegment
  unfold Component.ofSegment at hofSegment
  split at hofSegment
  · cases hofSegment
  · next hup =>
    obtain rfl : segment = name := by simpa using hofSegment
    exact ⟨hmem, hup⟩

theorem isName_of_mem_components {name : String} (h : .name name ∈ components path) :
    IsName name := by
  obtain ⟨hmem, hup⟩ := mem_segments_of_mem_components h
  obtain ⟨hempty, hhere, hslash⟩ := segment_spec hmem
  exact ⟨hempty, hhere, hup, hslash⟩

/-- Cleaning adds no component. -/
theorem mem_of_mem_foldl_step {c : Component} (cs done : List Component)
    (h : c ∈ cs.foldl step done) : c ∈ cs ∨ c ∈ done := by
  induction cs generalizing done with
  | nil => exact .inr h
  | cons x r ih =>
    rcases ih (step done x) h with h | h
    · exact .inl (List.mem_cons_of_mem x h)
    · have hstep : c = x ∨ c ∈ done := by
        unfold step at h
        split at h
        · exact .inr h
        · split at h
          · exact .inr h
          · exact .inr (List.mem_cons_of_mem _ h)
          · exact List.mem_cons.1 h
        · exact List.mem_cons.1 h
      rcases hstep with rfl | h
      · exact .inl List.mem_cons_self
      · exact .inr h

end Path

namespace Location

open Path

/-- All names of the location are names for paths. -/
def Plain (loc : Location) : Prop := ∀ name ∈ loc, IsName name

variable {loc : Location} {name : String}

theorem Plain.of_isPrefix {above : Location} (h : loc.Plain) (hway : above <+: loc) :
    above.Plain :=
  fun name hname => h name (hway.subset hname)

theorem isAbsolute_toPath (loc : Location) : isAbsolute (toPath loc) = true := by
  simp [isAbsolute, toPath]

theorem ofComponents_root (loc : Location) : ofComponents (.root :: loc.map .name) = toPath loc := by
  cases loc with
  | nil => rfl
  | cons name r =>
    have htexts : (r.map Component.name).map Component.text = r := by
      rw [List.map_map]
      exact List.map_id r
    simp [ofComponents, slashed, toPath, Component.text, htexts]

theorem segments_toPath (h : Plain loc) : segments (toPath loc) = loc := by
  have htext : (toPath loc).toList = '/' :: ['/'].intercalate (loc.map String.toList) := by
    simp [toPath, toList_slashed]
  have hsplit : (toPath loc).toList.splitOn '/' =
      [] :: (['/'].intercalate (loc.map String.toList)).splitOn '/' := by
    rw [htext]
    exact List.splitOn_append_cons_self [] _
  have hnames : (loc.map String.toList).map String.ofList = loc := by
    simp [Function.comp_def]
  have hkept : loc.filter (fun s => s != "" && s != ".") = loc := by
    refine List.filter_eq_self.2 ?_
    intro name hname
    simp [(h name hname).1, (h name hname).2.1]
  cases loc with
  | nil => rfl
  | cons first r =>
    have hback : (['/'].intercalate ((first :: r).map String.toList)).splitOn '/' =
        (first :: r).map String.toList := by
      refine List.splitOn_intercalate '/' ?_ (by simp)
      intro stretch hstretch
      obtain ⟨name, hname, rfl⟩ := List.mem_map.1 hstretch
      exact (h name hname).2.2.2
    rw [segments, hsplit, hback, List.map_cons, hnames]
    simpa using hkept

theorem components_toPath (h : Plain loc) : components (toPath loc) = .root :: loc.map .name := by
  rw [components_of_isAbsolute (isAbsolute_toPath loc), segments_toPath h]
  congr 1
  refine List.map_congr_left ?_
  intro name hname
  simp [Component.ofSegment, (h name hname).2.2.1]

/-- What a path means is plain. -/
theorem plain_ofPath (base path : String) : Plain (ofPath base path) := by
  intro name hname
  obtain ⟨c, hc, hcname⟩ := List.mem_filterMap.1 hname
  have hmem : .name name ∈ cleanComponents (components (join base path)) := by
    split at hcname
    · obtain rfl := Option.some.inj hcname
      exact hc
    · cases hcname
  rcases mem_of_mem_foldl_step _ _ (List.mem_reverse.1 hmem) with hmem | hmem
  · exact isName_of_mem_components hmem
  · cases hmem

theorem foldl_step_names (names done : List String) :
    (names.map Component.name).foldl step (done.map .name ++ [.root]) =
      (names.reverse ++ done).map .name ++ [.root] := by
  induction names generalizing done with
  | nil => rfl
  | cons name r ih => simpa [step] using ih (name :: done)

theorem plain_of_components {path : String} (h : components path = .root :: loc.map .name) :
    Plain loc := by
  intro name hname
  have hmem : .name name ∈ components path := by
    rw [h]
    exact List.mem_cons_of_mem _ (List.mem_map_of_mem hname)
  exact isName_of_mem_components hmem

/-- A path whose components are the root and names means these names. -/
theorem ofPath_of_components {path : String} (h : components path = .root :: loc.map .name)
    (base : String) : ofPath base path = loc := by
  have hfold : (components path).foldl step [] = loc.reverse.map .name ++ [.root] := by
    rw [h]
    have hnames := foldl_step_names loc []
    rw [List.append_nil] at hnames
    exact hnames
  have hclean : cleanComponents (components path) = .root :: loc.map .name := by
    simp [cleanComponents, hfold]
  rw [ofPath, join_of_isAbsolute (isAbsolute_of_components h), hclean, List.filterMap_cons,
    List.filterMap_map]
  exact List.filterMap_some

/-- A plain location is what its text means, wherever relative paths are seen from. -/
theorem ofPath_toPath (h : Plain loc) (base : String) : ofPath base (toPath loc) = loc :=
  ofPath_of_components (components_toPath h) base

/-- Cleaning an absolute path gives the text of what it means. -/
theorem clean_eq_toPath {path : String} (h : isAbsolute path = true) (base : String) :
    clean path = toPath (ofPath base path) := by
  rw [clean_of_isAbsolute h base, ofComponents_root]

theorem parent?_toPath_nil : parent? (toPath []) = none := rfl

theorem parent?_toPath (h : Plain (loc ++ [name])) :
    parent? (toPath (loc ++ [name])) = some (toPath loc) := by
  unfold parent?
  rw [components_toPath h, List.map_append, List.map_singleton, ← List.cons_append,
    List.getLast?_concat, List.dropLast_concat]
  exact congrArg some (ofComponents_root loc)

theorem mem_toPath_iff {c : Char} (hc : c ≠ '/') :
    c ∈ (toPath loc).toList ↔ ∃ name ∈ loc, c ∈ name.toList := by
  have hslashed : ∀ loc : Location, c ∈ (slashed loc).toList ↔ ∃ name ∈ loc, c ∈ name.toList := by
    intro loc
    induction loc with
    | nil => simp [slashed]
    | cons first r ih =>
      cases r with
      | nil => simp [slashed]
      | cons next r => simp [slashed, ih, hc]
  simp [toPath, hslashed, hc]

theorem toPath_append (loc : Location) (name ending : String) :
    toPath (loc ++ [name]) ++ ending = toPath (loc ++ [name ++ ending]) := by
  cases loc with
  | nil => simp [toPath, slashed, String.append_assoc]
  | cons first r =>
    simp only [toPath, slashed_append_singleton (List.cons_ne_nil first r), String.append_assoc]

end Location

end Bindery
