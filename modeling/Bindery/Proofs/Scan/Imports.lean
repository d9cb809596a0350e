import Bindery.Module.Basic

/-!
# The imports that are found in a source

Matches do not overlap and none is empty, so a form of import is found at most once for each
character, and putting imports in order adds none. None of them has a target yet.

* `Scan.length_findAll_le` : the matches of one matcher.
* `Module.length_imports_ofSource_le` : the imports of a module, by the bytes of its source.
* `Module.resolved_of_mem_imports_ofSource` : imports have no targets until they are looked up.
-/

namespace Bindery

namespace Scan

theorem length_findFrom_le (m : Matcher) (before : Option Char) (index skip : Nat)
    (done : List Found) (text : List Char) :
    (findFrom m before index skip done text).length ≤ done.length + text.length := by
  induction text generalizing before index skip done with
  | nil => simp [findFrom]
  | cons ch r ih =>
    unfold findFrom
    split
    · next k => exact Nat.le_trans (ih _ _ _ _) (by simp)
    · split
      · next e he =>
        refine Nat.le_trans (ih _ _ _ _) ?_
        simp only [List.length_cons]
        omega
      · exact Nat.le_trans (ih _ _ _ _) (by simp)

theorem length_findAll_le (m : Matcher) (text : List Char) :
    (findAll m text).length ≤ text.length := by
  simpa [findAll] using length_findFrom_le m none 0 0 [] text

theorem length_collect_le (m : Matcher) (kind : ImportKind) (text : List Char) :
    (collect m kind text).length ≤ text.length :=
  Nat.le_trans (List.length_filterMap_le _ _) (length_findAll_le m text)

theorem length_dropRepeated_le (imports : List Import) :
    (dropRepeated imports).length ≤ imports.length := by
  suffices h : ∀ kept : List Import, (imports.foldl (fun kept i =>
      if kept.any fun k => k.specifier == i.specifier && k.kind == i.kind then kept
      else kept ++ [i]) kept).length ≤ kept.length + imports.length by
    simpa [dropRepeated] using h []
  induction imports with
  | nil => simp
  | cons i r ih =>
    intro kept
    refine Nat.le_trans (ih _) ?_
    dsimp only
    split
    · simp only [List.length_cons]
      omega
    · simp only [List.length_append, List.length_cons, List.length_nil]
      omega

theorem length_inTextOrder_le (found : List Placed) :
    (inTextOrder found).length ≤ found.length := by
  refine Nat.le_trans (length_dropRepeated_le _) ?_
  exact Nat.le_of_eq (by rw [List.length_map, List.length_mergeSort])

theorem mem_dropRepeated {imports : List Import} {i : Import} (h : i ∈ dropRepeated imports) :
    i ∈ imports := by
  suffices hkept : ∀ (imports kept : List Import), i ∈ imports.foldl (fun kept i =>
      if kept.any fun k => k.specifier == i.specifier && k.kind == i.kind then kept
      else kept ++ [i]) kept → i ∈ kept ∨ i ∈ imports from
    (hkept imports [] h).resolve_left List.not_mem_nil
  intro imports
  induction imports with
  | nil => exact fun kept h => .inl h
  | cons j r ih =>
    intro kept h
    rcases ih _ h with h | h
    · dsimp only at h
      split at h
      · exact .inl h
      · rcases List.mem_append.1 h with h | h
        · exact .inl h
        · exact .inr (List.mem_singleton.1 h ▸ List.mem_cons_self)
    · exact .inr (List.mem_cons_of_mem _ h)

/-- Of imports with the same specifier and use, one is left. -/
theorem exists_mem_dropRepeated {imports : List Import} {i : Import} (h : i ∈ imports) :
    ∃ k ∈ dropRepeated imports, k.specifier = i.specifier ∧ k.kind = i.kind := by
  suffices hkept : ∀ imports kept : List Import,
      (∃ k ∈ kept, k.specifier = i.specifier ∧ k.kind = i.kind) ∨ i ∈ imports →
      ∃ k ∈ imports.foldl (fun kept i =>
        if kept.any fun k => k.specifier == i.specifier && k.kind == i.kind then kept
        else kept ++ [i]) kept, k.specifier = i.specifier ∧ k.kind = i.kind from
    hkept imports [] (.inr h)
  intro imports
  induction imports with
  | nil => exact fun kept h => h.resolve_right List.not_mem_nil
  | cons j r ih =>
    intro kept h
    refine ih _ ?_
    dsimp only
    rcases h with ⟨k, hk, hsame⟩ | h
    · refine .inl ⟨k, ?_, hsame⟩
      split
      · exact hk
      · exact List.mem_append_left _ hk
    · rcases List.mem_cons.1 h with rfl | h
      · left
        split
        · next hany => simpa [List.any_eq_true] using hany
        · exact ⟨i, List.mem_append_right _ List.mem_cons_self, rfl, rfl⟩
      · exact .inr h

theorem exists_of_mem_inTextOrder {found : List Placed} {i : Import} (h : i ∈ inTextOrder found) :
    ∃ f ∈ found, f.2 = i := by
  rcases List.mem_map.1 (mem_dropRepeated h) with ⟨f, hf, hi⟩
  exact ⟨f, List.mem_mergeSort.1 hf, hi⟩

theorem exists_mem_inTextOrder {found : List Placed} {f : Placed} (h : f ∈ found) :
    ∃ i ∈ inTextOrder found, i.specifier = f.2.specifier ∧ i.kind = f.2.kind :=
  exists_mem_dropRepeated (List.mem_map_of_mem (List.mem_mergeSort.2 h))

theorem resolved_of_mem_collect {m : Matcher} {kind : ImportKind} {text : List Char} {f : Placed}
    (h : f ∈ collect m kind text) : f.2.resolved = none := by
  rcases List.mem_filterMap.1 h with ⟨match', -, hf⟩
  rcases Option.map_eq_some_iff.1 hf with ⟨_, -, rfl⟩
  rfl

theorem resolved_of_mem_scriptImports {source : String} {i : Import}
    (h : i ∈ scriptImports source) : i.resolved = none := by
  rcases exists_of_mem_inTextOrder h with ⟨f, hf, rfl⟩
  simp only [List.mem_append] at hf
  rcases hf with ((hf | hf) | hf) | hf <;> exact resolved_of_mem_collect hf

theorem resolved_of_mem_styleImports {source : String} {i : Import} (h : i ∈ styleImports source) :
    i.resolved = none := by
  rcases exists_of_mem_inTextOrder h with ⟨f, hf, rfl⟩
  rcases List.mem_append.1 hf with hf | hf
  · rcases List.mem_filterMap.1 hf with ⟨_, -, hf⟩
    rcases Option.bind_eq_some_iff.1 hf with ⟨_, -, hf⟩
    dsimp only at hf
    split at hf
    · exact Option.some.inj hf ▸ rfl
    · simp at hf
  · rcases List.mem_filterMap.1 hf with ⟨_, -, hf⟩
    rcases Option.bind_eq_some_iff.1 hf with ⟨_, -, hf⟩
    dsimp only at hf
    split at hf
    · exact Option.some.inj hf ▸ rfl
    · simp at hf

/-- Four forms of import are looked for in a script. -/
theorem length_scriptImports_le (source : String) :
    (scriptImports source).length ≤ 4 * source.length := by
  refine Nat.le_trans (length_inTextOrder_le _) ?_
  have himport := length_collect_le importStatement .static source.toList
  have hexport := length_collect_le exportStatement .reExport source.toList
  have hdynamic := length_collect_le (callOf "import") .dynamic source.toList
  have hrequire := length_collect_le (callOf "require") .static source.toList
  simp only [List.length_append]
  rw [String.length_toList] at *
  omega

/-- Rules and references are looked for in a style sheet. -/
theorem length_styleImports_le (source : String) :
    (styleImports source).length ≤ 2 * source.length := by
  refine Nat.le_trans (length_inTextOrder_le _) ?_
  have hrules := length_findAll_le styleImport source.toList
  have hurls := length_findAll_le styleUrl source.toList
  rw [String.length_toList] at hrules hurls
  rw [List.length_append]
  refine Nat.le_trans (Nat.add_le_add (List.length_filterMap_le _ _)
    (List.length_filterMap_le _ _)) ?_
  omega

end Scan

/-! ## Modules -/

namespace Text.Utf8

/-- Every character takes at least one byte. -/
theorem length_le_encoded (text : List Char) : text.length ≤ text.utf8Encode.size := by
  induction text with
  | nil => exact Nat.zero_le _
  | cons c r ih =>
    have hfirst : 1 ≤ [c].utf8Encode.size := by
      have hpos : 0 < c.utf8Size := c.utf8Size_pos
      simpa [List.utf8Encode_singleton, Nat.succ_le_iff] using hpos
    calc r.length + 1 ≤ r.utf8Encode.size + [c].utf8Encode.size := Nat.add_le_add ih hfirst
      _ = ([c].utf8Encode ++ r.utf8Encode).size := by rw [ByteArray.size_append, Nat.add_comm]
      _ = (c :: r).utf8Encode.size := by rw [← List.utf8Encode_cons]

/-- A text has at most as many characters as its encoding has bytes. -/
theorem length_le_of_decode? {bytes : ByteArray} {text : String} (h : decode? bytes = some text) :
    text.length ≤ bytes.size := by
  have hbytes : text.toByteArray = bytes := by
    simp only [decode?, String.fromUTF8?] at h
    split at h
    · rw [← Option.some.inj h]
      rfl
    · simp at h
  have hle := length_le_encoded text.toList
  rwa [String.utf8Encode_toList, hbytes, String.length_toList] at hle

end Text.Utf8

namespace Module

theorem length_imports_ofSource_le (id : ModuleId) (path : String) (source : ByteArray) :
    (ofSource id path source).imports.length ≤ 4 * source.size := by
  simp only [ofSource]
  split
  · next text _ htext =>
    have := Scan.length_scriptImports_le text
    have := Text.Utf8.length_le_of_decode? htext
    omega
  · next text _ htext =>
    have := Scan.length_styleImports_le text
    have := Text.Utf8.length_le_of_decode? htext
    omega
  · simp

theorem resolved_of_mem_imports_ofSource {id : ModuleId} {path : String} {source : ByteArray}
    {i : Import} (h : i ∈ (ofSource id path source).imports) : i.resolved = none := by
  simp only [ofSource] at h
  split at h
  · exact Scan.resolved_of_mem_scriptImports h
  · exact Scan.resolved_of_mem_styleImports h
  · simp at h

end Module

end Bindery
