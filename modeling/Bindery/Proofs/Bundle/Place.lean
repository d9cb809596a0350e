import Bindery.Bundle.Output
import Bindery.Proofs.Disk

/-!
# Where output goes

An output directory is the text of a location, and so is every path that a file is written to: its
location lies below that of the directory. A file is written beside its place first, in the same
directory and under a longer name.

* `Output.absolute_eq`, `Output.target?_spec` : the directory and the paths below it.
* `Output.beside` : where a file is before it takes its place.
* `Output.above_beside_iff`, `Output.beside_injective` : beside a file lies in the same directory.
-/

namespace Bindery

namespace Path

theorem head?_slashed {first : String} (h : first ≠ "") (r : List String) :
    (slashed (first :: r)).toList.head? = first.toList.head? := by
  have hne : first.toList ≠ [] := by simpa using h
  cases r with
  | nil => rfl
  | cons next r => simp [slashed, List.head?_append_of_ne_nil _ hne]

/-- A path that begins with a name, a point or a way up is not absolute. -/
theorem isAbsolute_ofComponents_of_ne_root {c : Component} {r : List Component} (hroot : c ≠ .root)
    (hname : ∀ name, c = .name name → IsName name) : isAbsolute (ofComponents (c :: r)) = false := by
  have hslashed : ofComponents (c :: r) = slashed (c.text :: r.map Component.text) := by
    unfold ofComponents
    split
    · next heq => exact absurd (List.cons.inj heq).1 hroot
    · rfl
  rw [isAbsolute, hslashed]
  cases c with
  | root => exact absurd rfl hroot
  | here => rw [head?_slashed (by decide)]; rfl
  | up => rw [head?_slashed (by decide)]; rfl
  | name text =>
    obtain ⟨hne, -, -, hslash⟩ := hname text rfl
    have htext : (Component.name text).text ≠ "" := hne
    rw [head?_slashed htext, decide_eq_false_iff_not]
    intro hhead
    exact hslash (List.mem_of_head? hhead)

/-- What is absolute after cleaning was absolute before. -/
theorem isAbsolute_of_isAbsolute_clean {path : String} (h : isAbsolute (clean path) = true) :
    isAbsolute path = true := by
  by_contra hrelative
  rw [Bool.not_eq_true] at hrelative
  have hmem : ∀ c ∈ cleanComponents (components path), c ∈ components path := by
    intro c hc
    rcases mem_of_mem_foldl_step _ _ (List.mem_reverse.1 hc) with hc | hc
    · exact hc
    · cases hc
  have hclean : isAbsolute (clean path) = false := by
    unfold clean
    cases hcs : cleanComponents (components path) with
    | nil => rfl
    | cons c r =>
      have hc : c ∈ components path := hmem c (hcs ▸ List.mem_cons_self)
      refine isAbsolute_ofComponents_of_ne_root ?_ ?_
      · rintro rfl
        exact root_notMem_components hrelative hc
      · rintro name rfl
        exact isName_of_mem_components hc
  rw [hclean] at h
  cases h

end Path

namespace Location

open Path

theorem Plain.append_singleton {loc : Location} {name : String} (h : Plain loc)
    (hname : IsName name) : Plain (loc ++ [name]) := by
  intro other hother
  rcases List.mem_append.1 hother with hother | hother
  · exact h other hother
  · rwa [List.mem_singleton.1 hother]

/-- Going on from the text of a location by a name. -/
theorem join_toPath {loc : Location} {name : String} (h : Plain loc) (hname : IsName name) :
    join (toPath loc) name = toPath (loc ++ [name]) := by
  have hrelative : isAbsolute name = false := isAbsolute_of_isName hname
  have hne : toPath loc ≠ "" := by simp [toPath]
  rcases List.eq_nil_or_concat' loc with rfl | ⟨above, last, rfl⟩
  · have hroot : (toPath []).toList.getLast? = some '/' := rfl
    rw [join, hrelative, if_neg Bool.false_ne_true, if_neg hne, if_pos hroot]
    rfl
  · obtain ⟨hlast, -, -, hslash⟩ := h last (List.mem_append_right _ (List.mem_singleton_self _))
    have hend : (toPath (above ++ [last])).toList.getLast? ≠ some '/' := by
      obtain ⟨start, hstart⟩ : ∃ start, toPath (above ++ [last]) = start ++ last := by
        by_cases habove : above = []
        · exact ⟨"/", by simp [habove, toPath, slashed]⟩
        · exact ⟨"/" ++ (slashed above ++ "/"), by
            simp only [toPath, slashed_append_singleton habove last, String.append_assoc]⟩
      have hne : last.toList ≠ [] := by simpa using hlast
      rw [hstart, String.toList_append, List.getLast?_append_of_ne_nil _ hne]
      exact fun hmem => hslash (List.mem_of_getLast? hmem)
    have hmore : above ++ [last] ≠ [] := by simp
    rw [join, hrelative, if_neg Bool.false_ne_true, if_neg hne, if_neg hend]
    simp only [toPath, slashed_append_singleton hmore name, String.append_assoc]

end Location

namespace Output

open Path Location

variable {base directory file full : String} {loc : Location}

/-- An output directory is the text of a location. -/
theorem absolute_eq (hbase : isAbsolute base = true) (directory : String) :
    ∃ loc : Location, loc.Plain ∧ absolute base directory = toPath loc := by
  by_cases habsolute : isAbsolute (clean directory) = true
  · refine ⟨_, plain_ofPath base directory, ?_⟩
    rw [absolute, if_pos habsolute]
    exact clean_eq_toPath (isAbsolute_of_isAbsolute_clean habsolute) base
  · refine ⟨_, plain_ofPath base (join base (clean directory)), ?_⟩
    rw [absolute, if_neg habsolute]
    exact clean_eq_toPath (isAbsolute_join hbase _) base

theorem absolute_toPath (hplain : loc.Plain) (base : String) :
    absolute base (toPath loc) = toPath loc := by
  have hclean : clean (toPath loc) = toPath loc := by
    rw [clean_eq_toPath (isAbsolute_toPath loc) "/", ofPath_toPath hplain]
  rw [absolute, hclean, if_pos (isAbsolute_toPath loc)]

theorem isSome_stripComponents?_iff {base cs : List Component} :
    (stripComponents? base cs).isSome = true ↔ base <+: cs := by
  rw [Option.isSome_iff_exists]
  exact exists_congr fun rest => stripComponents?_eq_some_iff.trans eq_comm

theorem isBelow_toPath_iff {above : Location} (habove : above.Plain) (hplain : loc.Plain) :
    isBelow (toPath above) (toPath loc) = true ↔ above <+: loc := by
  rw [isBelow, isSome_stripComponents?_iff, components_toPath habove, components_toPath hplain,
    List.cons_prefix_cons, List.prefix_map_iff_of_injective]
  · simp
  · intro a b hab
    exact Component.name.inj hab

/-- A path below an output directory is the text of a location below it. -/
theorem target?_spec {above : Location} (habove : above.Plain)
    (h : target? (toPath above) file = .ok full) :
    ∃ loc : Location, loc.Plain ∧ above.Above loc ∧ full = toPath loc := by
  have hfull := clean_eq_toPath (isAbsolute_join (isAbsolute_toPath above) (clean file)) "/"
  have hplain := plain_ofPath "/" (join (toPath above) (clean file))
  unfold target? at h
  split at h
  · cases h
  · simp only [hfull] at h
    split at h
    · cases h
    · next hbelow =>
      simp only [Bool.or_eq_true, Bool.not_eq_true', decide_eq_true_eq, not_or,
        Bool.not_eq_false] at hbelow
      refine ⟨_, hplain, ⟨(isBelow_toPath_iff habove hplain).1 hbelow.1, ?_⟩, (Except.ok.inj h).symm⟩
      intro heq
      exact hbelow.2 (congrArg (fun loc => components (toPath loc)) heq.symm)

/-- A single name is the name of a file in an output directory. -/
theorem target?_of_isName {above : Location} (habove : above.Plain) {name : String}
    (hname : IsName name) (hnul : '\x00' ∉ name.toList) :
    target? (toPath above) name = .ok (toPath (above ++ [name])) := by
  have hplain : Plain (above ++ [name]) := habove.append_singleton hname
  have hfull : clean (join (toPath above) (clean name)) = toPath (above ++ [name]) := by
    rw [clean_of_isName hname, join_toPath habove hname,
      clean_eq_toPath (isAbsolute_toPath (above ++ [name])) "/", ofPath_toPath hplain]
  have hbelow : isBelow (toPath above) (toPath (above ++ [name])) = true :=
    (isBelow_toPath_iff habove hplain).2 (List.prefix_append above [name])
  have hother : components (toPath (above ++ [name])) ≠ components (toPath above) := by
    rw [components_toPath habove, components_toPath hplain]
    intro heq
    have hlength := congrArg List.length heq
    simp at hlength
  simp [target?, hfull, hbelow, hother, hnul, hname.1]

/-! ## Beside a place -/

/-- Where a file is before it takes its place. -/
def beside (loc : Location) : Location := loc.dropLast ++ [loc.getLast?.getD "" ++ ".sheaf-tmp"]

theorem beside_append (above : Location) (name : String) :
    beside (above ++ [name]) = above ++ [name ++ ".sheaf-tmp"] := by
  simp [beside]

theorem length_beside (hne : loc ≠ []) : (beside loc).length = loc.length := by
  obtain ⟨above, name, rfl⟩ := (List.eq_nil_or_concat' loc).resolve_left hne
  simp [beside_append]

theorem tempPath_toPath (hne : loc ≠ []) : tempPath (toPath loc) = toPath (beside loc) := by
  obtain ⟨above, name, rfl⟩ := (List.eq_nil_or_concat' loc).resolve_left hne
  rw [beside_append, tempPath, toPath_append]

/-- What waits has a name, even beside a path that ends with a separator or a point. -/
theorem isName_waiting {name : String} (hslash : '/' ∉ name.toList) :
    IsName (name ++ ".sheaf-tmp") := by
  have hlast : 'p' ∈ (name ++ ".sheaf-tmp").toList := by simp
  refine ⟨?_, ?_, ?_, by simpa using hslash⟩
  · intro heq
    simp [heq] at hlast
  · intro heq
    simp [heq] at hlast
  · intro heq
    simp [heq] at hlast

theorem plain_beside (hplain : loc.Plain) (hne : loc ≠ []) : (beside loc).Plain := by
  obtain ⟨above, name, rfl⟩ := (List.eq_nil_or_concat' loc).resolve_left hne
  rw [beside_append]
  intro other hother
  rcases List.mem_append.1 hother with hother | hother
  · exact hplain other (List.mem_append_left _ hother)
  · obtain rfl := List.mem_singleton.1 hother
    exact isName_waiting (hplain name (List.mem_append_right _ (List.mem_singleton_self _))).2.2.2

theorem above_beside_iff (hne : loc ≠ []) {above : Location} :
    above.Above (beside loc) ↔ above.Above loc := by
  obtain ⟨parent, name, rfl⟩ := (List.eq_nil_or_concat' loc).resolve_left hne
  rw [beside_append, above_append_singleton, above_append_singleton]

theorem beside_injective {other : Location} (hne : loc ≠ []) (hother : other ≠ [])
    (h : beside loc = beside other) : loc = other := by
  obtain ⟨above, name, rfl⟩ := (List.eq_nil_or_concat' loc).resolve_left hne
  obtain ⟨above', name', rfl⟩ := (List.eq_nil_or_concat' other).resolve_left hother
  rw [beside_append, beside_append] at h
  obtain ⟨rfl, hname⟩ := List.append_inj' h rfl
  have hnames : name ++ ".sheaf-tmp" = name' ++ ".sheaf-tmp" := (List.cons.inj hname).1
  rw [(String.append_left_inj _).1 hnames]

theorem beside_ne (hne : loc ≠ []) : beside loc ≠ loc := by
  obtain ⟨above, name, rfl⟩ := (List.eq_nil_or_concat' loc).resolve_left hne
  rw [beside_append]
  intro h
  have hname : name ++ ".sheaf-tmp" = name := (List.cons.inj (List.append_inj' h rfl).2).1
  have hsize := congrArg String.utf8ByteSize hname
  simp at hsize

/-- What can be written beside its place can take its place. -/
theorem storable_of_beside (hne : loc ≠ []) (h : Disk.Storable (beside loc)) :
    Disk.Storable loc := by
  obtain ⟨above, name, rfl⟩ := (List.eq_nil_or_concat' loc).resolve_left hne
  rw [beside_append, Disk.storable_iff] at h
  rw [Disk.storable_iff]
  intro other hother
  rcases List.mem_append.1 hother with hother | hother
  · exact h other (List.mem_append_left _ hother)
  · obtain rfl := List.mem_singleton.1 hother
    obtain ⟨hnul, hsize⟩ := h _ (List.mem_append_right above (List.mem_singleton_self _))
    rw [String.utf8ByteSize_append] at hsize
    exact ⟨fun hmem => hnul (by simp [hmem]), by omega⟩

/-- A name that is not too long can be that of a file and of what waits beside it. -/
theorem storable_beside {parent : Location} {name : String} (hparent : Disk.Storable parent)
    (hnul : '\x00' ∉ name.toList) (hsize : name.utf8ByteSize + 10 ≤ Disk.nameLimit) :
    Disk.Storable (beside (parent ++ [name])) := by
  rw [beside_append, Disk.storable_iff]
  intro other hother
  rcases List.mem_append.1 hother with hother | hother
  · exact Disk.storable_iff.1 hparent other hother
  · obtain rfl := List.mem_singleton.1 hother
    have hending : ".sheaf-tmp".utf8ByteSize = 10 := by decide
    refine ⟨by simpa using hnul, ?_⟩
    rw [String.utf8ByteSize_append, hending]
    exact hsize

end Output

end Bindery
