import Bindery.Proofs.Bundle.Place
import Bindery.Proofs.Graph.Naming

/-!
# Texts of paths below a base

The part of a path below an absolute base is told as it was written, without the separators and the
points at its ends. What is left out there stands for nothing, so the text has just the components
that the path has behind those of the base.

* `Path.components_relativeText?` : the components of the text.
* `Path.relativeText?_join_slashed` : the text of a path that goes on from the base by some names.
* `Location.exists_names_of_components` : where a path leads that goes on from another one.
-/

namespace Bindery

namespace Path

open behindNames (isIdle)

variable {base path text : String} {names : List String}

/-! ## Stretches that stand for nothing -/

theorem segments_eq_map_filter (path : String) :
    segments path = ((path.toList.splitOn '/').filter (!isIdle ·)).map String.ofList := by
  have hidle : ∀ stretch : List Char,
      (String.ofList stretch != "" && String.ofList stretch != ".") = !isIdle stretch := by
    intro stretch
    have hempty : (String.ofList stretch = "") ↔ stretch = [] := by simp
    have hpoint : (String.ofList stretch = ".") ↔ stretch = ['.'] := by
      rw [← String.toList_inj, String.toList_ofList]
      rfl
    simp only [isIdle, bne, Bool.not_or, beq_eq_decide, hempty, hpoint]
  rw [segments, List.filter_map]
  congr 1
  exact List.filter_congr fun stretch _ => hidle stretch

/-- What is left behind some names has the other names. -/
theorem filter_behindNames (n : Nat) (stretches : List (List Char)) :
    (behindNames n stretches).filter (!isIdle ·) = (stretches.filter (!isIdle ·)).drop n := by
  induction n generalizing stretches with
  | zero =>
    induction stretches with
    | nil => rfl
    | cons first r ih =>
      by_cases hidle : isIdle first = true
      · simpa [behindNames, hidle] using ih
      · simp [behindNames, hidle]
  | succ n ih =>
    rw [behindNames, ih]
    induction stretches with
    | nil => simp
    | cons first r ih =>
      by_cases hidle : isIdle first = true
      · simpa [hidle] using ih
      · simp [hidle]

theorem behindNames_subset (n : Nat) (stretches : List (List Char)) :
    behindNames n stretches ⊆ stretches := by
  induction n generalizing stretches with
  | zero => exact (List.dropWhile_sublist _).subset
  | succ n ih =>
    have htail := (List.tail_sublist (stretches.dropWhile isIdle)).subset
    exact List.Subset.trans (ih _) (List.Subset.trans htail (List.dropWhile_sublist _).subset)

/-- What is left begins with a name. -/
theorem head_behindNames (n : Nat) (stretches : List (List Char)) :
    ∀ first ∈ (behindNames n stretches).head?, isIdle first = false := by
  induction n generalizing stretches with
  | zero =>
    intro first hfirst
    have hnot := List.head?_dropWhile_not isIdle stretches
    rw [behindNames, Option.mem_def] at hfirst
    rw [hfirst] at hnot
    exact hnot
  | succ n ih => exact ih _

theorem behindNames_append (stretches : List (List Char)) {names : List (List Char)}
    (h : ∀ name ∈ names, isIdle name = false) :
    behindNames (stretches.filter (!isIdle ·)).length (stretches ++ names) = names := by
  have hnames : names.dropWhile isIdle = names := by
    cases names with
    | nil => rfl
    | cons first r => simp [h first List.mem_cons_self]
  induction stretches with
  | nil => exact hnames
  | cons first r ih =>
    by_cases hidle : isIdle first = true
    · have hstart : (first :: r).filter (!isIdle ·) = r.filter (!isIdle ·) := by simp [hidle]
      rw [hstart]
      generalize (r.filter (!isIdle ·)).length = n at ih
      cases n with
      | zero => simpa [behindNames, hidle] using ih
      | succ n => simpa [behindNames, hidle] using ih
    · simpa [behindNames, hidle] using ih

/-! ## The end of a text -/

/-- Nothing is left out of a text that ends in neither a separator nor a point behind one. -/
theorem dropTrailing_other {reversed : List Char} (hroot : reversed = ['/'] → False)
    (hslash : ∀ r, reversed = '/' :: r → False) (hpoint : ∀ r, reversed = '.' :: '/' :: r → False) :
    dropTrailing reversed = reversed := by
  rw [dropTrailing]
  · exact hroot
  · exact hslash
  · exact hpoint

/-- What is left out at the end of a text stands for nothing. -/
theorem segments_dropTrailing (reversed : List Char) :
    segments (String.ofList (dropTrailing reversed).reverse) =
      segments (String.ofList reversed.reverse) := by
  have hslash : ∀ start : List Char, ∀ rest : String,
      segments (String.ofList (start ++ '/' :: rest.toList)) =
        segments (String.ofList start) ++ segments rest := by
    intro start rest
    rw [← segments_append_slash]
    congr 1
    exact String.toList_inj.1 (by simp)
  induction reversed using dropTrailing.induct with
  | case1 => rfl
  | case2 r hmore ih =>
    have hstep : dropTrailing ('/' :: r) = dropTrailing r := by
      rw [dropTrailing]
      simpa using hmore
    have hend := hslash r.reverse ""
    have hnone : segments "" = [] := by decide
    rw [hnone, List.append_nil] at hend
    rw [hstep, ih, List.reverse_cons]
    exact hend.symm
  | case3 => decide
  | case4 r hmore ih =>
    have hend := hslash r.reverse "."
    have hnone : segments "." = [] := by decide
    rw [hnone, List.append_nil] at hend
    rw [dropTrailing, if_neg hmore, ih, List.reverse_cons, List.reverse_cons, List.append_assoc]
    exact hend.symm
  | case5 cs hroot hslash hpoint =>
    rw [dropTrailing_other hroot hslash hpoint]

/-- What is left out begins with a separator. -/
theorem exists_eq_append_dropTrailing (reversed : List Char) (h : reversed.getLast? ≠ some '/') :
    ∃ dropped, reversed = dropped ++ dropTrailing reversed ∧
      ∀ last ∈ dropped.getLast?, last = '/' := by
  induction reversed using dropTrailing.induct with
  | case1 => exact absurd rfl h
  | case2 r hmore ih =>
    have hne : r ≠ [] := by simpa using hmore
    have hlast : r.getLast? ≠ some '/' := by
      rwa [List.getLast?_cons_of_ne_nil hne] at h
    obtain ⟨dropped, heq, hend⟩ := ih hlast
    have hstep : dropTrailing ('/' :: r) = dropTrailing r := by
      rw [dropTrailing]
      simpa using hmore
    refine ⟨'/' :: dropped, by rw [hstep, List.cons_append, ← heq], ?_⟩
    intro last hmem
    cases dropped with
    | nil => simpa using hmem.symm
    | cons c r => exact hend last (by rwa [List.getLast?_cons_cons] at hmem)
  | case3 => exact absurd rfl h
  | case4 r hne ih =>
    have hlast : r.getLast? ≠ some '/' := by
      rwa [List.getLast?_cons_cons, List.getLast?_cons_of_ne_nil hne] at h
    obtain ⟨dropped, heq, hend⟩ := ih hlast
    have hstep : dropTrailing ('.' :: '/' :: r) = dropTrailing r := by
      rw [dropTrailing, if_neg hne]
    refine ⟨'.' :: '/' :: dropped, by rw [hstep, List.cons_append, List.cons_append, ← heq], ?_⟩
    intro last hmem
    cases dropped with
    | nil => simpa using hmem.symm
    | cons c r =>
      rw [List.getLast?_cons_cons, List.getLast?_cons_cons] at hmem
      exact hend last hmem
  | case5 cs hroot hslash hpoint =>
    exact ⟨[], by rw [dropTrailing_other hroot hslash hpoint]; rfl, by simp⟩

/-- Where nothing is left out, the text stays as it is. -/
theorem dropTrailing_eq_self {reversed : List Char} (hslash : reversed.head? ≠ some '/')
    (hpoint : ¬ ['.', '/'] <+: reversed) : dropTrailing reversed = reversed := by
  refine dropTrailing_other ?_ ?_ ?_
  · rintro rfl
    exact hslash rfl
  · rintro r rfl
    exact hslash rfl
  · rintro r rfl
    exact hpoint ⟨r, rfl⟩

/-! ## Components of a text -/

/-- A path that begins with a name, or with a way up, is neither absolute nor begins with a point. -/
theorem components_of_splitOn {first : List Char} {more : List (List Char)}
    (h : path.toList.splitOn '/' = first :: more) (hfirst : isIdle first = false) :
    components path = (segments path).map Component.ofSegment := by
  have hempty : first ≠ [] := by
    rintro rfl
    cases hfirst
  have hpoint : first ≠ ['.'] := by
    rintro rfl
    cases hfirst
  have habsolute : isAbsolute path = false := by
    rw [← Bool.not_eq_true]
    intro habsolute
    obtain ⟨r, hr⟩ := isAbsolute_iff.1 habsolute
    have hsplit := List.splitOn_append_cons_self (a := '/') [] r
    rw [List.nil_append, ← hr, h, List.splitOn_nil] at hsplit
    exact hempty (List.cons.inj hsplit).1
  have hhere : startsHere path = false := by
    unfold startsHere
    split
    · next heq =>
      rw [heq] at h
      exact absurd (List.cons.inj h).1.symm hpoint
    · next r heq =>
      have hsplit := List.splitOn_append_cons_self (a := '/') ['.'] r
      rw [List.cons_append, List.nil_append, ← heq, h] at hsplit
      exact absurd (List.cons.inj hsplit).1 hpoint
    · rfl
  simp [components, habsolute, hhere]

/-- The components of a text without what is left out at its end. -/
theorem components_dropTrailing {first : List Char} {more : List (List Char)}
    (hidle : isIdle first = false) (hslash : ∀ stretch ∈ first :: more, '/' ∉ stretch) :
    let whole := ['/'].intercalate (first :: more)
    components (String.ofList (dropTrailing whole.reverse).reverse) =
      (((first :: more).filter (!isIdle ·)).map String.ofList).map Component.ofSegment := by
  intro whole
  have hsplit : whole.splitOn '/' = first :: more :=
    List.splitOn_intercalate '/' hslash (List.cons_ne_nil first more)
  have hlast : whole.reverse.getLast? ≠ some '/' := by
    rw [List.getLast?_reverse]
    intro hhead
    obtain ⟨r, hr⟩ := List.head?_eq_some_iff.1 hhead
    have hparts := List.splitOn_append_cons_self (a := '/') [] r
    rw [List.nil_append, ← hr, hsplit, List.splitOn_nil] at hparts
    rw [(List.cons.inj hparts).1] at hidle
    cases hidle
  obtain ⟨dropped, hdropped, hend⟩ := exists_eq_append_dropTrailing _ hlast
  have hwhole : whole = (dropTrailing whole.reverse).reverse ++ dropped.reverse := by
    rw [← List.reverse_append, ← hdropped, List.reverse_reverse]
  -- what is left out begins with a separator, so the first stretch is the same
  obtain ⟨others, hothers⟩ :
      ∃ others, (dropTrailing whole.reverse).reverse.splitOn '/' = first :: others := by
    cases hback : dropped.reverse with
    | nil =>
      rw [hback, List.append_nil] at hwhole
      exact ⟨more, by rw [← hwhole, hsplit]⟩
    | cons c r =>
      have hc : c = '/' := hend c (by rw [← List.head?_reverse, hback]; rfl)
      have hparts : whole.splitOn '/' =
          (dropTrailing whole.reverse).reverse.splitOn '/' ++ r.splitOn '/' := by
        conv_lhs => rw [hwhole, hback, hc]
        exact List.splitOn_append_cons_self _ r
      rw [hsplit] at hparts
      cases hstart : (dropTrailing whole.reverse).reverse.splitOn '/' with
      | nil => exact absurd hstart (List.splitOn_ne_nil _ _)
      | cons start others =>
        rw [hstart, List.cons_append] at hparts
        exact ⟨others, by rw [(List.cons.inj hparts).1]⟩
  rw [components_of_splitOn (by rwa [String.toList_ofList]) hidle, segments_dropTrailing,
    List.reverse_reverse, segments_eq_map_filter, String.toList_ofList, hsplit]

/-! ## Texts below a base -/

theorem relativeText?_eq_none_iff :
    relativeText? base path = none ↔
      stripComponents? (components base) (components path) = none := by
  unfold relativeText?
  split
  · next h => simp [h]
  · next h => simp [h]
  · next h => simp [h]

/-- The text of a path below an absolute base has the components that the path has behind it. -/
theorem components_relativeText? (hbase : isAbsolute base = true)
    (h : relativeText? base path = some text) :
    components path = components base ++ components text := by
  obtain ⟨rest, hstrip⟩ : ∃ rest, stripComponents? (components base) (components path) = some rest := by
    rw [← Option.isSome_iff_exists, ← Option.ne_none_iff_isSome, ne_eq, ← relativeText?_eq_none_iff, h]
    exact Option.some_ne_none text
  have hbehind := stripComponents?_eq_some_iff.1 hstrip
  have hpath : isAbsolute path = true := by
    rw [components_of_isAbsolute hbase] at hbehind
    exact isAbsolute_of_components hbehind
  have hrest : rest = ((segments path).drop (segments base).length).map Component.ofSegment := by
    rw [components_of_isAbsolute hbase, components_of_isAbsolute hpath, List.cons_append] at hbehind
    rw [List.map_drop, (List.cons.inj hbehind).2, List.drop_left' (by simp)]
  have htext : text = String.ofList (dropTrailing (['/'].intercalate
      (behindNames (segments base).length (path.toList.splitOn '/'))).reverse).reverse := by
    unfold relativeText? at h
    rw [components_of_isAbsolute hbase] at h hstrip
    rw [hstrip] at h
    exact (Option.some.inj h).symm
  have hnames := filter_behindNames (segments base).length (path.toList.splitOn '/')
  rw [hbehind, hrest, segments_eq_map_filter path, ← List.map_drop, ← hnames, htext]
  cases hleft : behindNames (segments base).length (path.toList.splitOn '/') with
  | nil => rfl
  | cons first more =>
    have hidle : isIdle first = false := head_behindNames _ _ first (by rw [hleft]; rfl)
    have hslash : ∀ stretch ∈ first :: more, '/' ∉ stretch := by
      intro stretch hstretch
      rw [← hleft] at hstretch
      exact notMem_of_mem_splitOn (behindNames_subset _ _ hstretch)
    rw [components_dropTrailing hidle hslash]

theorem isIdle_of_mem_names (h : ∀ name ∈ names, IsName name) :
    ∀ stretch ∈ names.map String.toList, isIdle stretch = false := by
  intro stretch hstretch
  obtain ⟨name, hname, rfl⟩ := List.mem_map.1 hstretch
  obtain ⟨hname, hpoint, -, -⟩ := h name hname
  have hpoint : name.toList ≠ ['.'] := fun heq => hpoint (String.toList_inj.1 heq)
  simp [isIdle, hname, hpoint]

/-- Whether or not the base ends with a separator, its names come before the others. -/
theorem behindNames_join_slashed (hbase : isAbsolute base = true)
    (h : ∀ name ∈ names, IsName name) (hne : names ≠ []) :
    behindNames (segments base).length ((join base (slashed names)).toList.splitOn '/') =
      names.map String.toList := by
  have hempty : base ≠ "" := by
    rintro rfl
    cases hbase
  have hidle := isIdle_of_mem_names h
  rw [segments_eq_map_filter base, List.length_map]
  unfold join
  rw [if_neg (by simp [isAbsolute_slashed h hne]), if_neg hempty]
  split
  · next hlast =>
    obtain ⟨start, hstart⟩ := List.getLast?_eq_some_iff.1 hlast
    have htext : (base ++ slashed names).toList = start ++ '/' :: (slashed names).toList := by
      simp [hstart]
    have hcount : ((base.toList.splitOn '/').filter (!isIdle ·)).length =
        ((start.splitOn '/').filter (!isIdle ·)).length := by
      rw [hstart, List.splitOn_append_cons_self, List.splitOn_nil, List.filter_append,
        List.length_append]
      rfl
    rw [htext, List.splitOn_append_cons_self, splitOn_slashed h hne, hcount]
    exact behindNames_append _ hidle
  · have htext : (base ++ "/" ++ slashed names).toList =
        base.toList ++ '/' :: (slashed names).toList := by
      simp
    rw [htext, List.splitOn_append_cons_self, splitOn_slashed h hne]
    exact behindNames_append _ hidle

/-- Names leave nothing to drop: the last of them is neither empty nor a point. -/
theorem dropTrailing_slashed (h : ∀ name ∈ names, IsName name) (hne : names ≠ []) :
    dropTrailing (slashed names).toList.reverse = (slashed names).toList.reverse := by
  have hending : ∀ start ending : List Char,
      (slashed names).toList = start ++ '/' :: ending → '/' ∉ ending → isIdle ending = false := by
    intro start ending htext hslash
    have hsplit := splitOn_slashed h hne
    rw [htext, List.splitOn_append_cons_self, Text.splitOn_of_notMem hslash] at hsplit
    exact isIdle_of_mem_names h ending
      (hsplit ▸ List.mem_append_right _ (List.mem_singleton_self _))
  refine dropTrailing_eq_self ?_ ?_
  · intro hhead
    obtain ⟨r, hr⟩ := List.head?_eq_some_iff.1 hhead
    have hnone := hending r.reverse [] (by rw [List.reverse_eq_iff.1 hr]; simp) (by simp)
    cases hnone
  · rintro ⟨r, hr⟩
    have hpoint := hending r.reverse ['.'] (by rw [List.reverse_eq_iff.1 hr.symm]; simp) (by simp)
    cases hpoint

/-- The text of a path that goes on from an absolute base by some names is made of these names. -/
theorem relativeText?_join_slashed (hbase : isAbsolute base = true)
    (h : ∀ name ∈ names, IsName name) (hne : names ≠ []) :
    relativeText? base (join base (slashed names)) = some (slashed names) := by
  have hcomponents : components (join base (slashed names)) =
      components base ++ names.map .name := by
    rw [components_join hbase (isAbsolute_slashed h hne), segments_slashed h hne, map_ofSegment h]
  have hstrip : stripComponents? (components base)
      (components (join base (slashed names))) = some (names.map .name) :=
    stripComponents?_eq_some_iff.2 hcomponents
  unfold relativeText?
  rw [hstrip, components_of_isAbsolute hbase]
  simp only [behindNames_join_slashed hbase h hne, ← toList_slashed, dropTrailing_slashed h hne,
    List.reverse_reverse, String.ofList_toList]

end Path

namespace Location

open Path

/-- A path that goes on from an absolute one and never up leads on by names. -/
theorem exists_names_of_components {root path : String} {more : List Component}
    (hroot : isAbsolute root = true) (h : components path = components root ++ more)
    (hup : .up ∉ more) (base : String) :
    ∃ names : Location, more = names.map .name ∧
      ofPath base path = ofPath base root ++ names := by
  have hpath : isAbsolute path = true := by
    rw [components_of_isAbsolute hroot] at h
    exact isAbsolute_of_components h
  obtain ⟨names, hnames⟩ : ∃ names : Location, more = names.map .name := by
    have hsegments := h
    rw [components_of_isAbsolute hpath, components_of_isAbsolute hroot, List.cons_append] at hsegments
    obtain ⟨-, below, -, -, hbelow⟩ := List.map_eq_append_iff.1 (List.cons.inj hsegments).2
    refine ⟨below, ?_⟩
    rw [← hbelow] at hup ⊢
    refine List.map_congr_left ?_
    intro segment hsegment
    have hmem : Component.ofSegment segment ∈ below.map Component.ofSegment :=
      List.mem_map_of_mem hsegment
    unfold Component.ofSegment at hmem ⊢
    split
    · next heq =>
      rw [if_pos heq] at hmem
      exact absurd hmem hup
    · rfl
  exact ⟨names, hnames, ofPath_eq_append hroot hpath (hnames ▸ h) base⟩

end Location

end Bindery
