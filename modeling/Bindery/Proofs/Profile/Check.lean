import Mathlib.Data.List.Infix
import Mathlib.Data.List.Nodup
import Bindery.Profile.Check

/-!
# Profiles without faults

A profile is accepted when none of the checks finds a fault. What that means for each part of it is
said here without the checks.

* `GroupsFit`, `groupFault?_eq_none_iff` : what named groups have to be.
* `Accepted`, `validate_eq_ok_iff` : a profile is accepted exactly when all of its parts are as they
  have to be.
-/

namespace Bindery

theorem ne_empty_of_not_blank {text : String} (h : Text.isBlankText text = false) : text ≠ "" := by
  rintro rfl
  cases h

namespace Profile

variable {entries seen : List String} {groups : List ChunkGroup} {p : Profile}

/-! ## Entries, files and addresses -/

theorem entryFault?_eq_none_iff {entry : String × List String} :
    entryFault? entry = none ↔ Text.isBlankText entry.1 = false ∧ entry.2 ≠ [] ∧
      ∀ module ∈ entry.2, Text.isBlankText module = false := by
  have hmodules : (entry.2.isEmpty || entry.2.any Text.isBlankText) = false ↔
      entry.2 ≠ [] ∧ ∀ module ∈ entry.2, Text.isBlankText module = false := by
    simp
  rw [← hmodules, entryFault?]
  split_ifs with hname hfound
  · simp [hname]
  · simp [hfound]
  · simp [hname, hfound]

/-- Looking for a text at every place finds it when it is there. -/
theorem occursIn_iff {part text : List Char} : occursIn part text = true ↔ part <:+: text := by
  induction text with
  | nil => rw [occursIn, List.isEmpty_iff, List.infix_nil]
  | cons c r ih =>
    rw [occursIn, Bool.or_eq_true, List.isPrefixOf_iff_prefix, ih, List.infix_cons_iff]

theorem publicPathFault?_eq_none_iff {path : String} :
    publicPathFault? path = none ↔ path.toList.getLast? = some '/' := by
  simp [publicPathFault?]

theorem extensionFault?_eq_none_iff {extension : String} :
    extensionFault? extension = none ↔ extension.toList.head? = some '.' := by
  simp [extensionFault?]

theorem assetFault?_eq_none_iff {rule : AssetRule} :
    assetFault? rule = none ↔ "[name]".toList <:+: rule.filename.toList := by
  rw [← occursIn_iff, assetFault?]
  constructor
  · intro h
    by_contra hnot
    rw [if_neg hnot] at h
    cases h
  · intro h
    exact if_pos h

/-! ## Named groups -/

/-- The name is no path. -/
def IsFlat (name : String) : Prop := ∀ c ∈ name.toList, c ≠ '/' ∧ c ≠ '\\'

/-- Named groups that can be told apart, from each other and from the entries. -/
structure GroupsFit (entries : List String) (groups : List ChunkGroup) : Prop where
  named : ∀ group ∈ groups, Text.isBlankText group.name = false
  flat : ∀ group ∈ groups, IsFlat group.name
  nodup : (groups.map (·.name)).Nodup
  apart : ∀ group ∈ groups, group.name ∉ entries

theorem groupsFit_nil : GroupsFit entries [] where
  named := by simp
  flat := by simp
  nodup := List.nodup_nil
  apart := by simp

theorem groupsFit_cons_iff {group : ChunkGroup} : GroupsFit entries (group :: groups) ↔
    (Text.isBlankText group.name = false ∧ IsFlat group.name ∧ group.name ∉ entries) ∧
      GroupsFit entries groups ∧ ∀ other ∈ groups, other.name ≠ group.name := by
  constructor
  · rintro ⟨hnamed, hflat, hnodup, hapart⟩
    obtain ⟨hnew, hnodup⟩ := List.nodup_cons.1 hnodup
    rw [List.forall_mem_cons] at hnamed hflat hapart
    refine ⟨⟨hnamed.1, hflat.1, hapart.1⟩, ⟨hnamed.2, hflat.2, hnodup, hapart.2⟩, ?_⟩
    intro other hother heq
    exact hnew (List.mem_map.2 ⟨other, hother, heq⟩)
  · rintro ⟨⟨hnamed, hflat, hapart⟩, hrest, hother⟩
    constructor
    case named => exact List.forall_mem_cons.2 ⟨hnamed, hrest.named⟩
    case flat => exact List.forall_mem_cons.2 ⟨hflat, hrest.flat⟩
    case apart => exact List.forall_mem_cons.2 ⟨hapart, hrest.apart⟩
    case nodup =>
      refine List.nodup_cons.2 ⟨?_, hrest.nodup⟩
      rw [List.mem_map]
      rintro ⟨other, hmem, heq⟩
      exact hother other hmem heq

/-- Groups have no fault when they fit and none is named like one before them. -/
theorem groupFault?_eq_none_iff : groupFault? entries seen groups = none ↔
    GroupsFit entries groups ∧ ∀ group ∈ groups, group.name ∉ seen := by
  induction groups generalizing seen with
  | nil => simp [groupFault?, groupsFit_nil]
  | cons group r ih =>
    -- the checks are made in order, and each one that finds something denies a part
    have hflatness : (group.name.toList.any fun c => c = '/' || c = '\\') = false ↔
        IsFlat group.name := by
      simp [IsFlat]
    rw [groupFault?, groupsFit_cons_iff, ← hflatness]
    split_ifs with hblank hflat hseen hentry
    · simp [hblank]
    · simp [hflat]
    · simp [List.contains_iff_mem.1 hseen]
    · simp [List.contains_iff_mem.1 hentry]
    · rw [List.contains_iff_mem] at hseen hentry
      rw [Bool.not_eq_true] at hblank hflat
      -- for the rest the name of this group is one of those before
      have hrest : (∀ other ∈ r, other.name ∉ group.name :: seen) ↔
          (∀ other ∈ r, other.name ≠ group.name) ∧ ∀ other ∈ r, other.name ∉ seen := by
        simp only [List.mem_cons, not_or, ← forall_and, ne_eq]
      rw [ih, hrest, List.forall_mem_cons]
      simp only [hblank, hflat, hseen, hentry, not_false_eq_true, true_and, and_assoc]

/-! ## Profiles -/

/-- What is checked of a profile. -/
structure Accepted (p : Profile) : Prop where
  nonempty : p.entries ≠ []
  /-- An entry has a name and modules, none of them blank. -/
  entries : ∀ entry ∈ p.entries, Text.isBlankText entry.1 = false ∧ entry.2 ≠ [] ∧
    ∀ module ∈ entry.2, Text.isBlankText module = false
  publicPath : p.output.publicPath.toList.getLast? = some '/'
  extensions : ∀ extension ∈ p.extensions, extension.toList.head? = some '.'
  /-- The name of a copied file has room for the name of what is copied. -/
  assets : ∀ rule ∈ p.assets, "[name]".toList <:+: rule.filename.toList
  groups : ∀ settings, p.split? = some settings →
    GroupsFit (p.entries.map (·.1)) settings.groups

theorem fault?_eq_none_iff : p.fault? = none ↔ p.Accepted := by
  have hempty : p.entries.isEmpty = true ↔ p.entries = [] := List.isEmpty_iff
  unfold fault?
  split_ifs with hnone
  · constructor
    · intro h
      cases h
    · intro h
      exact absurd (hempty.1 hnone) h.nonempty
  · simp only [Option.or_eq_none_iff, List.findSome?_eq_none_iff, entryFault?_eq_none_iff,
      publicPathFault?_eq_none_iff, extensionFault?_eq_none_iff, assetFault?_eq_none_iff]
    constructor
    · rintro ⟨hentries, hpath, hextensions, hassets, hgroups⟩
      refine ⟨mt hempty.2 hnone, hentries, hpath, hextensions, hassets, ?_⟩
      intro settings hsettings
      rw [hsettings] at hgroups
      exact (groupFault?_eq_none_iff.1 hgroups).1
    · rintro ⟨-, hentries, hpath, hextensions, hassets, hgroups⟩
      refine ⟨hentries, hpath, hextensions, hassets, ?_⟩
      split
      · next settings hsettings =>
        exact groupFault?_eq_none_iff.2 ⟨hgroups settings hsettings, by simp⟩
      · rfl

/-- A profile is accepted exactly when all of its parts are as they have to be. -/
theorem validate_eq_ok_iff : p.validate = .ok () ↔ p.Accepted := by
  rw [← fault?_eq_none_iff, validate]
  cases p.fault? with
  | none => simp
  | some e => simp

end Profile

end Bindery
