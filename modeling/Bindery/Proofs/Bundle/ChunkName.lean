import Mathlib.Data.List.Nodup
import Bindery.Proofs.Bundle.Plan

/-!
# Names of chunks

A chunk asks for a name and gets it, with a number where it is taken. All candidates for a name differ,
so among more of them than there are taken names one is free. That is why no two chunks of a build for
production share a name, and a file that carries the name of its chunk tells which chunk it is of.

* `Split.candidateName_injective` : numbers make names differ.
* `Split.uniqueName_spec` : looking for a free name ends, and the first free one is chosen.
* `Split.uniqueName_eq_self` : a name is given as it was asked for if it is free.
* `Split.nodup_names_shared` : chunks for production have names of their own.
-/

namespace Bindery

namespace Split

variable {base : String} {taken : List String}

theorem candidateName_zero (base : String) : candidateName base 0 = base := rfl

theorem candidateName_succ (base : String) (n : Nat) :
    candidateName base (n + 1) = base ++ ("-" ++ toString (n + 2)) := by
  rw [candidateName, if_neg (Nat.succ_ne_zero n), String.append_assoc]

/-- Reading the digits of a number gives it back. -/
theorem eq_of_toString_eq {m n : Nat} (h : toString m = toString n) : m = n := by
  have hdigits : Nat.toDigits 10 m = Nat.toDigits 10 n := by
    rw [← Nat.toList_repr, ← Nat.toList_repr, ← Nat.toString_eq_repr, h, Nat.toString_eq_repr]
  calc m = Nat.ofDigitChars 10 (Nat.toDigits 10 m) 0 := Nat.ofDigitChars_ten_toDigits.symm
    _ = Nat.ofDigitChars 10 (Nat.toDigits 10 n) 0 := by rw [hdigits]
    _ = n := Nat.ofDigitChars_ten_toDigits

/-- Numbers make names differ. -/
theorem candidateName_injective (base : String) : Function.Injective (candidateName base) := by
  have hnumbered : ∀ n, candidateName base (n + 1) ≠ base := by
    intro n h
    have hlength := congrArg String.length h
    simp [candidateName_succ] at hlength
  intro m n h
  cases m with
  | zero =>
    cases n with
    | zero => rfl
    | succ n => exact absurd h.symm (hnumbered n)
  | succ m =>
    cases n with
    | zero => exact absurd h (hnumbered m)
    | succ n =>
      rw [candidateName_succ, candidateName_succ, String.append_right_inj,
        String.append_right_inj] at h
      have hnumber : m + 2 = n + 2 := eq_of_toString_eq h
      omega

/-- Among more candidates than there are taken names one is free. -/
theorem exists_candidateName_notMem (base : String) (taken : List String) :
    ∃ n < taken.length + 1, candidateName base n ∉ taken := by
  by_contra! hall
  have hnodup : ((List.range (taken.length + 1)).map (candidateName base)).Nodup :=
    List.nodup_range.map (candidateName_injective base)
  have hsubset : (List.range (taken.length + 1)).map (candidateName base) ⊆ taken := by
    intro name hname
    rcases List.mem_map.1 hname with ⟨n, hn, rfl⟩
    exact hall n (List.mem_range.1 hn)
  have hlength := (hnodup.subperm hsubset).length_le
  rw [List.length_map, List.length_range] at hlength
  omega

/-- The name from which candidates are made. -/
def askedName (base : String) : String := if base = "" then "chunk" else base

theorem askedName_ne_empty (base : String) : askedName base ≠ "" := by
  unfold askedName
  split_ifs with h
  · decide
  · exact h

/-- A candidate is free, and all before it are taken: that is where counting up ends. -/
structure FirstFree (base : String) (taken : List String) (n : Nat) : Prop where
  free : candidateName base n ∉ taken
  taken : ∀ k < n, candidateName base k ∈ taken

/-- Counting up ends after at most as many steps as there are taken names, and the name that is
chosen is the one where it ends. -/
theorem uniqueName_spec (base : String) (taken : List String) : ∃ n ≤ taken.length,
    FirstFree (askedName base) taken n ∧
      uniqueName base taken = candidateName (askedName base) n := by
  have hunfold : uniqueName base taken =
      (((List.range (taken.length + 1)).map (candidateName (askedName base))).find?
        fun name => !taken.contains name).getD (askedName base) := rfl
  have hfound : ∃ name, ((List.range (taken.length + 1)).map (candidateName (askedName base))).find?
      (fun name => !taken.contains name) = some name := by
    obtain ⟨n, hn, hfree⟩ := exists_candidateName_notMem (askedName base) taken
    rw [← Option.isSome_iff_exists, List.find?_isSome]
    refine ⟨_, List.mem_map_of_mem (List.mem_range.2 hn), ?_⟩
    simpa using hfree
  obtain ⟨name, hname⟩ := hfound
  obtain ⟨hfree, n, hn, hat, hbefore⟩ := List.find?_eq_some_iff_getElem.1 hname
  rw [List.length_map, List.length_range] at hn
  simp only [List.getElem_map, List.getElem_range] at hat hbefore
  subst hat
  refine ⟨n, Nat.le_of_lt_succ hn, ⟨by simpa using hfree, ?_⟩, ?_⟩
  · intro k hk
    simpa using hbefore k hk
  · rw [hunfold, hname, Option.getD_some]

/-- The name that is chosen is free. -/
theorem uniqueName_notMem (base : String) (taken : List String) : uniqueName base taken ∉ taken := by
  obtain ⟨n, -, hfirst, hname⟩ := uniqueName_spec base taken
  rw [hname]
  exact hfirst.free

theorem candidateName_ne_empty (hbase : base ≠ "") (n : Nat) : candidateName base n ≠ "" := by
  cases n with
  | zero => exact hbase
  | succ n =>
    intro h
    rw [candidateName_succ, String.append_eq_empty_iff] at h
    exact hbase h.1

/-- The name that is chosen is not empty, even where none was asked for. -/
theorem uniqueName_ne_empty (base : String) (taken : List String) : uniqueName base taken ≠ "" := by
  obtain ⟨n, -, -, hname⟩ := uniqueName_spec base taken
  rw [hname]
  exact candidateName_ne_empty (askedName_ne_empty base) n

/-- A name that is free is given as it was asked for. -/
theorem uniqueName_eq_self (hbase : base ≠ "") (hfree : base ∉ taken) :
    uniqueName base taken = base := by
  simp [uniqueName, hbase, List.range_succ_eq_map, candidateName_zero, hfree]

/-- No two chunks share a name. -/
theorem Plan.nodup_names_chunks (p : Plan) (g : ModuleGraph) (slots : SlotMap) :
    ((p.chunks g slots).map (·.name)).Nodup := by
  -- a chunk gets a name that those before it do not have
  suffices hfold : ∀ done : ChunkSet, (done.map (·.name)).Nodup →
      ((slots.foldl (fun done s => done ++ [p.chunk g (done.map (·.name)) s.1 s.2]) done).map
        (·.name)).Nodup from
    hfold [] List.nodup_nil
  induction slots with
  | nil => exact fun done hdone => hdone
  | cons s r ih =>
    intro done hdone
    refine ih _ ?_
    rw [List.map_append, List.map_singleton]
    refine hdone.append (List.nodup_singleton _) ?_
    rw [List.disjoint_singleton]
    exact uniqueName_notMem _ _

theorem nodup_names_shared (g : ModuleGraph) (settings : SplitSettings) (assets : List ModuleId) :
    ((shared g settings assets).map (·.name)).Nodup :=
  Plan.nodup_names_chunks _ g _

end Split

end Bindery
