import Bindery.Bundle.FileName
import Bindery.Proofs.Path

/-!
# Digests in file names

The digest in the name of a file is eight hexadecimal digits, whatever the file holds, so it never
changes where the file goes. It stands right before the extension, whatever the name of the chunk
holds, so it can be read from the name. And whatever a chunk is called, its files have single names.

* `FileName.hex_of_mem_fingerprint`, `FileName.length_fingerprint` : these digits.
* `Text.replace_append` : marks are replaced one by one in texts that no mark can bridge.
* `FileName.ofChunk_eq`, `FileName.exists_ofChunk_eq` : what the name of a file is made of, and how it
  ends in production.
* `FileName.isName_ofChunk` : it is a single name, whatever the chunk is called.
-/

namespace Bindery

namespace Text

theorem hex_of_mem_hexByte {n : Nat} {c : Char} (h : c ∈ hexByte n) : ∃ v, hexValue? c = some v := by
  have hhigh := hexValue?_hexDigit (n / 16 % 16) (Nat.mod_lt _ (by decide))
  have hlow := hexValue?_hexDigit (n % 16) (Nat.mod_lt _ (by decide))
  simp only [hexByte, List.mem_cons, List.not_mem_nil, or_false] at h
  rcases h with rfl | rfl
  · exact ⟨_, hhigh⟩
  · exact ⟨_, hlow⟩

/-- The same text has the same last characters, however it is divided. -/
theorem take_reverse_eq_of_append_eq {n : Nat} {start start' rest rest' : List Char}
    (h : start ++ rest = start' ++ rest') (hn : n ≤ rest.length) (hn' : n ≤ rest'.length) :
    rest.reverse.take n = rest'.reverse.take n := by
  have hends := congrArg (fun cs : List Char => cs.reverse.take n) h
  simp only [List.reverse_append] at hends
  rwa [List.take_append_of_le_length (by rwa [List.length_reverse]),
    List.take_append_of_le_length (by rwa [List.length_reverse])] at hends

/-! ## Replacing marks -/

/-- Enough fuel is as good as more of it. -/
theorem replaceAll_eq_replaceAll {part : List Char} (hpart : part ≠ []) (new : List Char)
    {fuel fuel' : Nat} {cs : List Char} (h : cs.length < fuel) (h' : cs.length < fuel') :
    replaceAll part new fuel cs = replaceAll part new fuel' cs := by
  induction fuel generalizing fuel' cs with
  | zero => exact absurd h (Nat.not_lt_zero _)
  | succ fuel ih =>
    cases fuel' with
    | zero => exact absurd h' (Nat.not_lt_zero _)
    | succ fuel' =>
      cases cs with
      | nil => rfl
      | cons c r =>
        have hpos := List.length_pos_iff.2 hpart
        have hdrop : ((c :: r).drop part.length).length ≤ r.length := by
          rw [List.length_drop, List.length_cons]
          omega
        have hlt : r.length < fuel := Nat.lt_of_succ_lt_succ h
        have hlt' : r.length < fuel' := Nat.lt_of_succ_lt_succ h'
        rw [replaceAll, replaceAll, ih (Nat.lt_of_le_of_lt hdrop hlt)
          (Nat.lt_of_le_of_lt hdrop hlt'), ih hlt hlt']

/-- A text reaches over no character that it does not hold. -/
theorem isPrefixOf_append_cons {part : List Char} {c : Char} (hc : c ∉ part) (xs r : List Char) :
    part.isPrefixOf (xs ++ c :: r) = part.isPrefixOf xs := by
  rw [Bool.eq_iff_iff, List.isPrefixOf_iff_prefix, List.isPrefixOf_iff_prefix]
  refine ⟨?_, fun h => h.trans (List.prefix_append _ _)⟩
  intro h
  rcases List.prefix_or_prefix_of_prefix h (List.prefix_append xs _) with hp | ⟨t, ht⟩
  · exact hp
  · rw [← ht, List.prefix_append_right_inj] at h
    cases t with
    | nil =>
      have hself : part = xs := by rw [← ht, List.append_nil]
      exact hself ▸ List.prefix_rfl
    | cons d t =>
      obtain ⟨u, hu⟩ := h
      obtain rfl : d = c := (List.cons.inj hu).1
      exact absurd (ht ▸ List.mem_append_right _ List.mem_cons_self) hc

/-- A character that a mark does not hold parts what is replaced before it from what is replaced
behind it. -/
theorem replaceAll_append_cons {part : List Char} (hpart : part ≠ []) (new : List Char) {c : Char}
    (hc : c ∉ part) (xs r : List Char) {fuel : Nat} (hfuel : (xs ++ c :: r).length < fuel) :
    replaceAll part new fuel (xs ++ c :: r) =
      replaceAll part new fuel xs ++ replaceAll part new fuel (c :: r) := by
  induction fuel generalizing xs with
  | zero => exact absurd hfuel (Nat.not_lt_zero _)
  | succ fuel ih =>
    cases xs with
    | nil => rfl
    | cons x xs =>
      have hpos := List.length_pos_iff.2 hpart
      simp only [List.cons_append, List.length_cons, List.length_append] at hfuel
      have hstep : replaceAll part new fuel (c :: r) = replaceAll part new (fuel + 1) (c :: r) :=
        replaceAll_eq_replaceAll hpart new (by rw [List.length_cons]; omega)
          (by rw [List.length_cons]; omega)
      have hhere : part.isPrefixOf (x :: (xs ++ c :: r)) = part.isPrefixOf (x :: xs) :=
        isPrefixOf_append_cons hc (x :: xs) r
      rw [List.cons_append, replaceAll, hhere, replaceAll]
      split
      · next hfound =>
        have hle : part.length ≤ (x :: xs).length :=
          (List.isPrefixOf_iff_prefix.1 hfound).length_le
        have hdrop : (x :: (xs ++ c :: r)).drop part.length =
            (x :: xs).drop part.length ++ c :: r := by
          rw [← List.cons_append, List.drop_append_of_le_length hle]
        have hshort : ((x :: xs).drop part.length ++ c :: r).length < fuel := by
          simp only [List.length_append, List.length_drop, List.length_cons]
          omega
        rw [hdrop, ih _ hshort, List.append_assoc, hstep]
      · have hshort : (xs ++ c :: r).length < fuel := by
          simp only [List.length_append, List.length_cons]
          omega
        rw [ih _ hshort, List.cons_append, hstep]

/-- Where the first character of a mark does not occur, the mark does not either. -/
theorem replaceAll_of_notMem {c : Char} {p cs : List Char} (h : c ∉ cs) (new : List Char)
    (fuel : Nat) : replaceAll (c :: p) new fuel cs = cs := by
  induction cs generalizing fuel with
  | nil =>
    cases fuel with
    | zero => rfl
    | succ fuel => rfl
  | cons x r ih =>
    cases fuel with
    | zero => rfl
    | succ fuel =>
      rw [List.mem_cons, not_or] at h
      have hfirst : (c :: p).isPrefixOf (x :: r) = false := by
        simp [List.isPrefixOf, h.1]
      rw [replaceAll, hfirst, if_neg Bool.false_ne_true, ih h.2]

/-- Replacing brings in nothing but the new text. -/
theorem mem_of_mem_replaceAll {part new cs : List Char} {fuel : Nat} {c : Char}
    (h : c ∈ replaceAll part new fuel cs) : c ∈ cs ∨ c ∈ new := by
  induction fuel generalizing cs with
  | zero => exact .inl h
  | succ fuel ih =>
    cases cs with
    | nil => exact .inl h
    | cons x r =>
      rw [replaceAll] at h
      split at h
      · rcases List.mem_append.1 h with hnew | hrest
        · exact .inr hnew
        · exact (ih hrest).imp_left List.mem_of_mem_drop
      · rcases List.mem_cons.1 h with rfl | hrest
        · exact .inl List.mem_cons_self
        · exact (ih hrest).imp_left (List.mem_cons_of_mem x)

/-- Marks are replaced one by one in texts that no mark can bridge. -/
theorem replace_append {mark : String} (hmark : mark ≠ "") (new : String) {c : Char}
    (hc : c ∉ mark.toList) (start : String) {rest : String} (hrest : rest.toList.head? = some c) :
    replace (start ++ rest) mark new = replace start mark new ++ replace rest mark new := by
  have hpart : mark.toList ≠ [] := by simpa using hmark
  obtain ⟨r, hr⟩ := List.head?_eq_some_iff.1 hrest
  have hlength : (start.toList ++ c :: r).length < (start ++ rest).toList.length + 1 := by
    rw [String.toList_append, hr]
    exact Nat.lt_succ_self _
  simp only [List.length_append, List.length_cons, String.toList_append, hr] at hlength
  apply String.toList_inj.1
  simp only [replace, String.toList_ofList, String.toList_append, hr]
  rw [replaceAll_append_cons hpart _ hc _ _ (Nat.lt_succ_self _)]
  congr 1
  · refine replaceAll_eq_replaceAll hpart _ ?_ (Nat.lt_succ_self _)
    rw [List.length_append]
    omega
  · refine replaceAll_eq_replaceAll hpart _ ?_ (Nat.lt_succ_self _)
    rw [List.length_append]
    omega

end Text

namespace FileName

open Path

variable {bytes : ByteArray} {name : String} {c : Char}

theorem hex_of_mem_blake3 (h : c ∈ (Digest.blake3 bytes).toList) :
    ∃ v, Text.hexValue? c = some v := by
  simp only [Digest.blake3, String.toList_ofList, List.mem_flatMap] at h
  obtain ⟨w, -, hc⟩ := h
  simp only [Digest.Blake3.hexWord, List.mem_append] at hc
  rcases hc with ((hc | hc) | hc) | hc
  · exact Text.hex_of_mem_hexByte hc
  · exact Text.hex_of_mem_hexByte hc
  · exact Text.hex_of_mem_hexByte hc
  · exact Text.hex_of_mem_hexByte hc

/-- A fingerprint consists of hexadecimal digits. -/
theorem hex_of_mem_fingerprint (h : c ∈ (fingerprint bytes).toList) :
    ∃ v, Text.hexValue? c = some v := by
  rw [fingerprint, String.toList_ofList] at h
  exact hex_of_mem_blake3 (List.mem_of_mem_take h)

/-- A digest has eight digits for each of its eight words. -/
theorem length_blake3 (bytes : ByteArray) : (Digest.blake3 bytes).toList.length = 64 := by
  have hword : ∀ w, (Digest.Blake3.hexWord w).length = 8 := fun _ => rfl
  simp [Digest.blake3, List.length_flatMap, hword, List.map_const']

theorem length_fingerprint (bytes : ByteArray) : (fingerprint bytes).toList.length = 8 := by
  rw [fingerprint, String.toList_ofList, List.length_take, length_blake3]
  rfl

theorem length_fingerprint_le (bytes : ByteArray) : (fingerprint bytes).toList.length ≤ 8 :=
  Nat.le_of_eq (length_fingerprint bytes)

/-- What stands behind the digest in a name. -/
def Role.extension : Role → String
  | .entryScript => ".js"
  | .chunkScript => ".js"
  | .style => ".css"

/-- What tells the files of a chunk apart. -/
def Role.word : Role → String
  | .entryScript => ".bundle"
  | .chunkScript => ".chunk"
  | .style => ""

/-- What a name tells of the content of its file. -/
def digest (hashed : Bool) (bytes : ByteArray) : String :=
  if hashed then "." ++ fingerprint bytes else ""

/-- The name of a chunk as it stands in the names of its files. -/
def stem (hashed : Bool) (name : String) (bytes : ByteArray) : String :=
  if hashed then Text.replace (sanitize name) "[hash]" (fingerprint bytes) else sanitize name

/-- What the name of a file is made of. Marks in the name of the chunk are replaced as well. -/
theorem ofChunk_eq (name : String) (role : Role) (bytes : ByteArray) (hashed : Bool) :
    ofChunk name role bytes hashed =
      stem hashed name bytes ++ (role.word ++ (digest hashed bytes ++ role.extension)) := by
  cases hashed with
  | false => cases role <;> rfl
  | true =>
    have hhead : (role.ending (some "[hash]")).toList.head? = some '.' := by
      cases role <;> rfl
    have hending : Text.replace (role.ending (some "[hash]")) "[hash]" (fingerprint bytes) =
        role.word ++ (digest true bytes ++ role.extension) := by
      apply String.toList_inj.1
      cases role <;>
        simp [Text.replace, Role.ending, Text.replaceAll, digest, Role.word, Role.extension]
    rw [ofChunk, if_pos rfl, Text.replace_append (by decide) _ (by decide) _ hhead, hending]
    rfl

/-- The name of a file in production ends in the digest and the extension, whatever the name of the
chunk holds. -/
theorem exists_ofChunk_eq (name : String) (role : Role) (bytes : ByteArray) :
    ∃ start, (ofChunk name role bytes true).toList =
      start ++ ((fingerprint bytes).toList ++ role.extension.toList) := by
  refine ⟨(stem true name bytes ++ role.word ++ ".").toList, ?_⟩
  rw [ofChunk_eq]
  simp [digest]

/-- A text of some length takes at most four times as many bytes. -/
theorem utf8ByteSize_le (text : String) : text.utf8ByteSize ≤ 4 * text.toList.length := by
  have hchars : ∀ cs : List Char, (String.ofList cs).utf8ByteSize ≤ 4 * cs.length := by
    intro cs
    induction cs with
    | nil => simp
    | cons c r ih =>
      have hfirst := c.utf8Size_le_four
      rw [String.ofList_cons, String.utf8ByteSize_append, String.utf8ByteSize_singleton,
        List.length_cons]
      omega
  have htext := hchars text.toList
  rwa [String.ofList_toList] at htext

/-! ## Single names -/

/-- What no name of an output file may hold: what parts names, and what ends them. -/
def Breaking (c : Char) : Prop := c = '/' ∨ c = '\x00'

theorem notMem_sanitize (hc : Breaking c) (name : String) : c ∉ (sanitize name).toList := by
  rw [sanitize, String.toList_ofList, List.mem_map]
  rintro ⟨original, -, horiginal⟩
  split at horiginal
  · rcases hc with rfl | rfl <;> exact absurd horiginal (by decide)
  · next hkept =>
    subst horiginal
    rcases hc with rfl | rfl <;> simp at hkept

theorem notMem_fingerprint (hc : Breaking c) (bytes : ByteArray) :
    c ∉ (fingerprint bytes).toList := by
  intro hmem
  obtain ⟨v, hv⟩ := hex_of_mem_fingerprint hmem
  have hnone : Text.hexValue? c = none := by
    rcases hc with rfl | rfl <;> decide
  rw [hnone] at hv
  cases hv

theorem notMem_ofChunk (hc : Breaking c) (name : String) (role : Role) (bytes : ByteArray)
    (hashed : Bool) : c ∉ (ofChunk name role bytes hashed).toList := by
  have hstem : c ∉ (stem hashed name bytes).toList := by
    cases hashed with
    | false => exact notMem_sanitize hc name
    | true =>
      rw [stem, if_pos rfl, Text.replace, String.toList_ofList]
      intro hmem
      rcases Text.mem_of_mem_replaceAll hmem with hmem | hmem
      · exact notMem_sanitize hc name hmem
      · exact notMem_fingerprint hc bytes hmem
  have hdigest : c ∉ (digest hashed bytes).toList := by
    cases hashed with
    | false => exact List.not_mem_nil
    | true =>
      have hpoint : c ∉ ".".toList := by rcases hc with rfl | rfl <;> decide
      rw [digest, if_pos rfl, String.toList_append, List.mem_append, not_or]
      exact ⟨hpoint, notMem_fingerprint hc bytes⟩
  have hfixed : c ∉ role.word.toList ∧ c ∉ role.extension.toList := by
    cases role <;> rcases hc with rfl | rfl <;> decide
  rw [ofChunk_eq]
  simp only [String.toList_append, List.mem_append, not_or]
  exact ⟨hstem, hfixed.1, hdigest, hfixed.2⟩

theorem isName_of_mem (hmem : c ∈ name.toList) (hpoint : c ≠ '.') (hslash : '/' ∉ name.toList) :
    IsName name := by
  have hne : ∀ other : String, c ∉ other.toList → name ≠ other := by
    rintro other hother rfl
    exact hother hmem
  exact ⟨hne "" (by simp), hne "." (by simpa using hpoint), hne ".." (by simpa using hpoint), hslash⟩

/-- The files of a chunk and their source maps have single names, whatever the chunk is called and
whatever they hold. -/
theorem isName_ofChunk (name : String) (role : Role) (bytes : ByteArray) (hashed : Bool) :
    IsName (ofChunk name role bytes hashed) ∧ IsName (sourceMap (ofChunk name role bytes hashed)) := by
  have hslash := notMem_ofChunk (.inl rfl) name role bytes hashed
  have hend : 's' ∈ (ofChunk name role bytes hashed).toList := by
    rw [ofChunk_eq]
    cases role <;> simp [Role.extension]
  have hmap : 'm' ∈ (sourceMap (ofChunk name role bytes hashed)).toList := by simp [sourceMap]
  refine ⟨isName_of_mem hend (by decide) hslash, isName_of_mem hmap (by decide) ?_⟩
  simpa [sourceMap] using hslash

end FileName

end Bindery
