import Mathlib.Data.List.Induction
import Bindery.Proofs.Bundle.Place
import Bindery.Proofs.Graph.Naming

/-!
# Ids and paths

Seen from a clean absolute root, a path means a location, and its id is the text of the names behind
the root, or the whole path where that lies elsewhere. Neither text is changed by reading it once
more, so ids and cleaned paths correspond to one another, however a path was spelled.

* `ModuleId.Behind` : a path goes on behind another one.
* `ModuleId.ofPath?_cases` : the root, what goes on behind it, and what lies elsewhere.
* `ModuleId.Leads` : what the id of a path tells about it.
* `ModuleId.ofPath?_inverse` : which paths have no id, and that ids lead back to their paths.
-/

namespace Bindery

namespace Path

variable {base path : String}

/-- All relative paths continue a base in the same way. -/
theorem exists_separator (hbase : base ≠ "") :
    ∃ separator, ∀ path, isAbsolute path = false → join base path = base ++ (separator ++ path) := by
  by_cases hend : base.toList.getLast? = some '/'
  · refine ⟨"", ?_⟩
    intro path hpath
    simp [join, hpath, hbase, hend]
  · refine ⟨"/", ?_⟩
    intro path hpath
    simp [join, hpath, hbase, hend, String.append_assoc]

theorem mem_of_mem_splitOn {c d : Char} {text stretch : List Char} (h : stretch ∈ text.splitOn c)
    (hd : d ∈ stretch) : d ∈ text := by
  induction text generalizing stretch with
  | nil =>
    obtain rfl : stretch = [] := by simpa using h
    exact hd
  | cons x r ih =>
    -- a separator begins a new stretch, any other character joins the first one
    rw [List.splitOn_cons_eq_if_modifyHead] at h
    split at h
    · rcases List.mem_cons.1 h with rfl | h
      · cases hd
      · exact List.mem_cons_of_mem x (ih h hd)
    · cases hparts : r.splitOn c with
      | nil => exact absurd hparts (List.splitOn_ne_nil c r)
      | cons first others =>
        rw [hparts, List.modifyHead_cons] at h
        rcases List.mem_cons.1 h with rfl | h
        · rcases List.mem_cons.1 hd with rfl | hd
          · exact List.mem_cons_self
          · exact List.mem_cons_of_mem x (ih (hparts ▸ List.mem_cons_self) hd)
        · exact List.mem_cons_of_mem x (ih (hparts ▸ List.mem_cons_of_mem first h) hd)

/-- The names of a path are cut from its text. -/
theorem mem_of_mem_name {name : String} {c : Char} (h : .name name ∈ components path)
    (hc : c ∈ name.toList) : c ∈ path.toList := by
  obtain ⟨stretch, hstretch, rfl⟩ :=
    List.mem_map.1 (List.mem_filter.1 (mem_segments_of_mem_components h).1).1
  rw [String.toList_ofList] at hc
  exact mem_of_mem_splitOn hstretch hc

/-- Cleaning an absolute path brings in no other characters than separators. -/
theorem mem_of_mem_clean {c : Char} (hpath : isAbsolute path = true) (hslash : c ≠ '/')
    (hc : c ∈ (clean path).toList) : c ∈ path.toList := by
  rw [Location.clean_eq_toPath hpath "", Location.mem_toPath_iff hslash] at hc
  obtain ⟨name, hname, hc⟩ := hc
  obtain ⟨component, hcomponent, hnamed⟩ := List.mem_filterMap.1 hname
  rw [join_of_isAbsolute hpath] at hcomponent
  split at hnamed
  · obtain rfl := Option.some.inj hnamed
    rcases mem_of_mem_foldl_step _ _ (List.mem_reverse.1 hcomponent) with hmem | hmem
    · exact mem_of_mem_name hmem hc
    · cases hmem
  · cases hnamed

end Path

namespace Location

open Path

variable {root loc below : Location}

/-- Plain locations are told apart by their texts. -/
theorem toPath_inj (h : root.Plain) (h' : loc.Plain) : toPath root = toPath loc ↔ root = loc := by
  constructor
  · intro heq
    rw [← ofPath_toPath h "", heq, ofPath_toPath h']
  · exact congrArg toPath

/-- Going on by some names from the text of a location. -/
theorem join_toPath_slashed (hroot : root.Plain) (hbelow : below.Plain) (hne : below ≠ []) :
    join (toPath root) (slashed below) = toPath (root ++ below) := by
  obtain ⟨separator, hjoin⟩ := @exists_separator (toPath root) (by simp [toPath])
  rw [hjoin _ (isAbsolute_slashed hbelow hne)]
  -- the names are put to the end one after the other, the first one by the separator
  induction below using List.reverseRecOn with
  | nil => exact absurd rfl hne
  | append_singleton above name ih =>
    have hname : IsName name := hbelow name (by simp)
    by_cases habove : above = []
    · subst habove
      exact (hjoin name (isAbsolute_of_isName hname)).symm.trans (join_toPath hroot hname)
    · have hmore : root ++ above ≠ [] := by simp [habove]
      have hstart := ih (hbelow.of_isPrefix (List.prefix_append above [name])) habove
      have htext : toPath (root ++ (above ++ [name])) = toPath (root ++ above) ++ ("/" ++ name) := by
        simp only [toPath, ← List.append_assoc, slashed_append_singleton hmore, String.append_assoc]
      rw [htext, ← hstart, slashed_append_singleton habove]
      simp only [String.append_assoc]

end Location

namespace ModuleId

open Path Location

variable {root path other part : String} {dir loc below : Location} {id : ModuleId}

/-! ## Behind the root -/

/-- A path goes on behind another one by a part that is more than nothing. -/
structure Behind (root path part : String) : Prop where
  joined : path = join root part
  nonempty : part ≠ ""
  relative : isAbsolute part = false

theorem not_behind_self (hroot : root ≠ "") : ¬Behind root root part := by
  intro h
  obtain ⟨separator, hjoin⟩ := exists_separator hroot
  have hlength := congrArg String.length (h.joined.trans (hjoin part h.relative))
  have hpart : part.length ≠ 0 := by simpa using h.nonempty
  simp only [String.length_append] at hlength
  omega

theorem behind_append (hdir : dir.Plain) (hbelow : below.Plain) (hne : below ≠ []) :
    Behind (Location.toPath dir) (Location.toPath (dir ++ below)) (slashed below) where
  joined := (join_toPath_slashed hdir hbelow hne).symm
  nonempty := by
    intro hempty
    have hsegments := segments_slashed hbelow hne
    rw [hempty] at hsegments
    exact hne hsegments.symm
  relative := isAbsolute_slashed hbelow hne

/-- A path has only one part behind another one. -/
theorem Behind.unique {more : String} (hroot : root ≠ "") (h : Behind root path part)
    (h' : Behind root path more) : part = more := by
  obtain ⟨separator, hjoin⟩ := exists_separator hroot
  have htext := h.joined.symm.trans h'.joined
  rw [hjoin part h.relative, hjoin more h'.relative] at htext
  exact (String.append_right_inj separator).1 ((String.append_right_inj root).1 htext)

/-- What goes on behind the text of a location lies below the location. -/
theorem Behind.isPrefix (hdir : dir.Plain) (hloc : loc.Plain)
    (h : Behind (Location.toPath dir) (Location.toPath loc) part) : dir <+: loc := by
  have hcomponents := congrArg components h.joined
  rw [components_join (isAbsolute_toPath dir) h.relative, components_toPath hdir,
    components_toPath hloc] at hcomponents
  obtain ⟨above, below, rfl, habove, -⟩ := List.map_eq_append_iff.1 (List.cons.inj hcomponents).2
  have hinjective : ∀ a b, Component.name a = .name b → a = b := fun a b => Component.name.inj
  rw [(List.map_inj_right hinjective).1 habove]
  exact List.prefix_append dir below

/-! ## The text of an id -/

theorem clean_toPath (hloc : loc.Plain) : clean (Location.toPath loc) = Location.toPath loc := by
  rw [clean_eq_toPath (isAbsolute_toPath loc) "", ofPath_toPath hloc]

theorem namingText_append (hdir : dir.Plain) (hbelow : below.Plain) :
    namingText (Location.toPath dir) (dir ++ below) = slashed below := by
  have hplain : (dir ++ below).Plain := fun name hname =>
    (List.mem_append.1 hname).elim (hdir name) (hbelow name)
  have hstrip : stripComponents? (.root :: dir.map .name) (.root :: (dir ++ below).map .name) =
      some (below.map .name) :=
    stripComponents?_eq_some_iff.2 (by simp)
  rw [namingText, stripBase?, clean_toPath hdir, components_toPath hdir, components_toPath hplain,
    hstrip, Option.map_some, ofComponents_map_name, Option.getD_some]

theorem namingText_of_not_isPrefix (hdir : dir.Plain) (hloc : loc.Plain) (h : ¬dir <+: loc) :
    namingText (Location.toPath dir) loc = Location.toPath loc := by
  rcases namingText_spec (isAbsolute_toPath dir) hloc "" with ⟨below, hbelow, -⟩ | hwhole
  · rw [ofPath_toPath hdir] at hbelow
    exact absurd (hbelow ▸ List.prefix_append dir below) h
  · exact hwhole

/-- Text that cleaning leaves as it is makes an id unless it is blank. The reserved word at its start
makes no difference. -/
theorem ofText?_eq_ite {text : String} (hforward : '\\' ∉ text.toList)
    (hclean : text = "" ∨ clean text = text ∧ text ≠ ".") :
    ofText? text = if Text.isBlankText text then none else some ⟨text⟩ := by
  by_cases hblank : Text.isBlankText text = true
  · simp [ofText?, forward_eq_self hforward, hblank]
  · rw [if_neg hblank]
    rw [Bool.not_eq_true] at hblank
    -- reserved text is taken as it is, and any other text is cleaned first
    cases hreserved : missingMark.toList.isPrefixOf text.toList with
    | true => simp [ofText?, forward_eq_self hforward, hblank, hreserved]
    | false =>
      rcases hclean with rfl | ⟨hclean, hhere⟩
      · cases hblank
      · exact ofText?_of_clean hforward hblank hreserved hclean hhere

theorem ofText?_slashed (hbelow : below.Plain) (hforward : '\\' ∉ (slashed below).toList) :
    ofText? (slashed below) =
      if Text.isBlankText (slashed below) then none else some ⟨slashed below⟩ := by
  refine ofText?_eq_ite hforward ?_
  by_cases hne : below = []
  · exact .inl (hne ▸ rfl)
  · refine .inr ⟨clean_slashed hbelow hne, ?_⟩
    intro hhere
    have hstarts := startsHere_slashed hbelow hne
    rw [hhere] at hstarts
    cases hstarts

theorem isBlankText_of_isAbsolute (h : isAbsolute path = true) : Text.isBlankText path = false := by
  obtain ⟨r, hr⟩ := isAbsolute_iff.1 h
  have hslash : Text.isBlank '/' = false := by decide
  simp [Text.isBlankText, hr, hslash]

theorem ofText?_toPath (hloc : loc.Plain) (hforward : '\\' ∉ (Location.toPath loc).toList) :
    ofText? (Location.toPath loc) = some ⟨Location.toPath loc⟩ := by
  have hhere : Location.toPath loc ≠ "." := by
    intro hhere
    have habsolute := isAbsolute_toPath loc
    rw [hhere] at habsolute
    cases habsolute
  rw [ofText?_eq_ite hforward (.inr ⟨clean_toPath hloc, hhere⟩),
    isBlankText_of_isAbsolute (isAbsolute_toPath loc), if_neg Bool.false_ne_true]

/-! ## Ids of paths -/

/-- The id of an absolute path depends on the cleaned path only. -/
theorem ofPath?_congr (hpath : isAbsolute path = true) (hother : isAbsolute other = true)
    (h : clean path = clean other) : ofPath? root path = ofPath? root other := by
  rw [ofPath?, ofPath?, join_of_isAbsolute hpath, join_of_isAbsolute hother, h]

/-- An absolute path means the root, or goes on behind it by a part that is the text of its id, or
lies elsewhere and is the text of its id itself. -/
theorem ofPath?_cases (hroot : isAbsolute root = true) (hclean : clean root = root)
    (hpath : isAbsolute path = true) (hforward : '\\' ∉ path.toList) :
    (clean path = root ∧ ofPath? root path = none) ∨
    (∃ part, Behind root (clean path) part ∧ ofText? part = ofPath? root path ∧
      ofPath? root path = if Text.isBlankText part then none else some ⟨part⟩) ∨
    (clean path ≠ root ∧ (∀ part, ¬Behind root (clean path) part) ∧
      ofText? (clean path) = ofPath? root path ∧ ofPath? root path = some ⟨clean path⟩) := by
  have hcleaned : '\\' ∉ (clean path).toList := fun hmem =>
    hforward (mem_of_mem_clean hpath (by decide) hmem)
  obtain ⟨dir, hdir, rfl⟩ : ∃ dir : Location, dir.Plain ∧ root = Location.toPath dir :=
    ⟨_, plain_ofPath "" root, by rw [← clean_eq_toPath hroot "", hclean]⟩
  have hne : Location.toPath dir ≠ "" := by simp [Location.toPath]
  have hid : ofPath? (Location.toPath dir) path =
      ofText? (namingText (Location.toPath dir) (ofPath "" path)) := by
    rw [ofPath?_eq_ofLocation? hpath _ "", ofLocation?_eq_ofText?]
  have hplain := plain_ofPath "" path
  rw [hid, ne_eq, clean_eq_toPath hpath "", toPath_inj hplain hdir]
  rw [clean_eq_toPath hpath ""] at hcleaned
  generalize ofPath "" path = loc at hplain hcleaned
  -- the text is what is below the root, if the path leads there at all
  by_cases hprefix : dir <+: loc
  · obtain ⟨below, rfl⟩ := hprefix
    have hbelow : Plain below := fun name hname => hplain name (List.mem_append_right dir hname)
    rw [namingText_append hdir hbelow]
    by_cases hnil : below = []
    · subst hnil
      have hnone : ofText? (slashed []) = none := by decide
      exact .inl ⟨List.append_nil dir, hnone⟩
    · have hbehind := behind_append hdir hbelow hnil
      -- the part is the end of the cleaned path, so it has no backslash either
      have htext : '\\' ∉ (slashed below).toList := by
        obtain ⟨separator, hjoin⟩ := exists_separator hne
        rw [hbehind.joined, hjoin _ hbehind.relative] at hcleaned
        intro hmem
        exact hcleaned (by simp [hmem])
      exact .inr (.inl ⟨slashed below, hbehind, rfl, ofText?_slashed hbelow htext⟩)
  · have hself : ¬loc = dir := by
      rintro rfl
      exact hprefix (List.prefix_refl loc)
    have hnone : ∀ part, ¬Behind (Location.toPath dir) (Location.toPath loc) part :=
      fun part hbehind => hprefix (hbehind.isPrefix hdir hplain)
    rw [namingText_of_not_isPrefix hdir hplain hprefix]
    exact .inr (.inr ⟨hself, hnone, rfl, ofText?_toPath hplain hcleaned⟩)

/-- What the id of a path tells about it: it leads back to the cleaned path, its text means it again,
it is relative if the path lies behind the root, and it is the id of the other spellings of the path
and of nothing else. -/
structure Leads (id : ModuleId) (root path : String) : Prop where
  back : id.toPath root = clean path
  again : ofText? id.text = some id
  relative : isAbsolute id.text = false ↔ ∃ part, Behind root (clean path) part
  spellings : ∀ other, isAbsolute other = true → '\\' ∉ other.toList →
    (ofPath? root other = some id ↔ clean other = clean path)

/-- Going back to the path, and reading the text of the id again. -/
theorem ofPath?_eq_some (hroot : isAbsolute root = true) (hclean : clean root = root)
    (hpath : isAbsolute path = true) (hforward : '\\' ∉ path.toList)
    (h : ofPath? root path = some id) :
    id.toPath root = clean path ∧ ofText? id.text = some id ∧
      (isAbsolute id.text = false ↔ ∃ part, Behind root (clean path) part) := by
  rcases ofPath?_cases hroot hclean hpath hforward with ⟨-, hnone⟩ | ⟨part, hbehind, hagain, hid⟩ |
    ⟨-, hnot, hagain, hid⟩
  · rw [hnone] at h
    cases h
  · rw [h] at hagain hid
    split at hid
    · cases hid
    · obtain rfl := Option.some.inj hid
      exact ⟨hbehind.joined.symm, hagain, fun _ => ⟨part, hbehind⟩, fun _ => hbehind.relative⟩
  · rw [h] at hagain hid
    obtain rfl := Option.some.inj hid
    have habsolute : isAbsolute (clean path) = true := isAbsolute_clean hpath
    refine ⟨join_of_isAbsolute habsolute root, hagain, ?_⟩
    simp [habsolute, hnot]

/-- A path has no id exactly if it means the root or what it has behind the root is blank. Otherwise
its id and the path, cleaned, lead to one another. -/
theorem ofPath?_inverse (hroot : isAbsolute root = true) (hclean : clean root = root)
    (hpath : isAbsolute path = true) (hforward : '\\' ∉ path.toList) :
    (ofPath? root path = none ↔
      clean path = root ∨ ∃ part, Behind root (clean path) part ∧ Text.isBlankText part = true) ∧
    ∀ id, ofPath? root path = some id → id.Leads root path := by
  have hne : root ≠ "" := by
    rintro rfl
    cases hroot
  constructor
  · rcases ofPath?_cases hroot hclean hpath hforward with ⟨hself, hnone⟩ | ⟨part, hbehind, -, hid⟩ |
      ⟨hself, hnot, -, hid⟩
    · simp [hself, hnone]
    · have hself : clean path ≠ root := fun hself => not_behind_self hne (hself ▸ hbehind)
      -- the part that may be blank is the one that the id is made of
      have hpart : (∃ more, Behind root (clean path) more ∧ Text.isBlankText more = true) ↔
          Text.isBlankText part = true := by
        constructor
        · rintro ⟨more, hmore, hblank⟩
          rwa [hbehind.unique hne hmore]
        · exact fun hblank => ⟨part, hbehind, hblank⟩
      rw [hid, hpart]
      simp [hself]
    · simp [hself, hnot, hid]
  · intro id hid
    obtain ⟨hback, hagain, hrelative⟩ := ofPath?_eq_some hroot hclean hpath hforward hid
    refine ⟨hback, hagain, hrelative, ?_⟩
    -- paths of the same id are both what the id leads back to
    intro other hother hforwardOther
    constructor
    · intro hsame
      rw [← hback, (ofPath?_eq_some hroot hclean hother hforwardOther hsame).1]
    · intro hsame
      rw [ofPath?_congr hother hpath hsame, hid]

/-- A detour over the root and back. -/
theorem ofPath?_inverse_detour :
    isAbsolute "/app" = true ∧ clean "/app" = "/app" ∧ isAbsolute "/app/../app//a/./b.js" = true ∧
      ofPath? "/app" "/app/../app//a/./b.js" = some ⟨"a/b.js"⟩ ∧
      (ModuleId.mk "a/b.js").Leads "/app" "/app/../app//a/./b.js" := by
  have hid : ofPath? "/app" "/app/../app//a/./b.js" = some ⟨"a/b.js"⟩ := by decide
  have hinverse := @ofPath?_inverse "/app" "/app/../app//a/./b.js" (by decide) (by decide)
    (by decide) (by decide)
  exact ⟨by decide, by decide, by decide, hid, hinverse.2 _ hid⟩

end ModuleId

end Bindery
