import Mathlib.Tactic.SplitIfs
import Bindery.Text.Utf8

/-!
# Decoding of well-formed bytes

The decoder that goes from stretch to stretch and the strict one agree: on the encoding of a text
the first finds just its characters, and where it finds no malformed stretch the bytes are the
encoding of what it finds.

* `Utf8.decodeEach_encode_append` : one encoded character is read back.
* `Utf8.exists_eq_encode` : without malformed stretches, the bytes are an encoding.
* `Utf8.isValidUTF8_iff` : bytes are well formed exactly if no stretch of them is malformed.
* `Utf8.decodeLossy_eq` : the lossy decoder goes from stretch to stretch on all bytes.
-/

namespace Bindery.Text.Utf8

/-! ### Classes of bytes -/

theorem isContinuation_iff {b : UInt8} :
    isContinuation b = true ↔ 0x80 ≤ b.toNat ∧ b.toNat ≤ 0xBF := by
  simp [isContinuation, UInt8.le_iff_toNat_le]

theorem secondOfThree_iff {b0 b1 : UInt8} : secondOfThree b0 b1 = true ↔
    0x80 ≤ b1.toNat ∧ b1.toNat ≤ 0xBF ∧ (b0.toNat = 0xE0 → 0xA0 ≤ b1.toNat) ∧
      (b0.toNat = 0xED → b1.toNat ≤ 0x9F) := by
  unfold secondOfThree
  split
  · next h => subst h; simp [UInt8.le_iff_toNat_le]; omega
  · next h =>
    split
    · next h' => subst h'; simp [UInt8.le_iff_toNat_le]; omega
    · next h' =>
      simp only [← UInt8.toNat_inj] at h h'
      simp only [isContinuation_iff]
      simp at h h'
      omega

theorem secondOfFour_iff {b0 b1 : UInt8} : secondOfFour b0 b1 = true ↔
    0x80 ≤ b1.toNat ∧ b1.toNat ≤ 0xBF ∧ (b0.toNat = 0xF0 → 0x90 ≤ b1.toNat) ∧
      (b0.toNat = 0xF4 → b1.toNat ≤ 0x8F) := by
  unfold secondOfFour
  split
  · next h => subst h; simp [UInt8.le_iff_toNat_le]; omega
  · next h =>
    split
    · next h' => subst h'; simp [UInt8.le_iff_toNat_le]; omega
    · next h' =>
      simp only [← UInt8.toNat_inj] at h h'
      simp only [isContinuation_iff]
      simp at h h'
      omega

/-! ### One character -/

section
variable {b0 b1 b2 b3 : UInt8} {r : List UInt8}

theorem decodeEach_one (h0 : b0.toNat < 0x80) :
    decodeEach (b0 :: r) = some (Char.ofNat b0.toNat) :: decodeEach r := by
  have h : b0 < 0x80 := UInt8.lt_iff_toNat_lt.2 h0
  rw [decodeEach.eq_def]
  simp only [h, if_true]

theorem decodeEach_two (h0 : 0xC2 ≤ b0.toNat ∧ b0.toNat ≤ 0xDF) (h1 : isContinuation b1 = true) :
    decodeEach (b0 :: b1 :: r) =
      some (Char.ofNat (b0.toNat % 32 * 64 + b1.toNat % 64)) :: decodeEach r := by
  have hascii : ¬b0 < 0x80 := by simp [UInt8.lt_iff_toNat_lt]; omega
  have htwo : (0xC2 ≤ b0 && b0 ≤ 0xDF) = true := by simpa [UInt8.le_iff_toNat_le] using h0
  rw [decodeEach.eq_def]
  simp only [hascii, htwo, h1, if_true, if_false]
  rfl

theorem decodeEach_three (h0 : 0xE0 ≤ b0.toNat ∧ b0.toNat ≤ 0xEF)
    (h1 : secondOfThree b0 b1 = true) (h2 : isContinuation b2 = true) :
    decodeEach (b0 :: b1 :: b2 :: r) =
      some (Char.ofNat (b0.toNat % 16 * 4096 + b1.toNat % 64 * 64 + b2.toNat % 64)) ::
        decodeEach r := by
  have hascii : ¬b0 < 0x80 := by simp [UInt8.lt_iff_toNat_lt]; omega
  have htwo : (0xC2 ≤ b0 && b0 ≤ 0xDF) = false := by
    simp [UInt8.le_iff_toNat_le]; omega
  have hthree : (0xE0 ≤ b0 && b0 ≤ 0xEF) = true := by simpa [UInt8.le_iff_toNat_le] using h0
  rw [decodeEach.eq_def]
  simp only [hascii, htwo, hthree, h1, h2, if_true, if_false, Bool.false_eq_true]
  rfl

theorem decodeEach_four (h0 : 0xF0 ≤ b0.toNat ∧ b0.toNat ≤ 0xF4)
    (h1 : secondOfFour b0 b1 = true) (h2 : isContinuation b2 = true)
    (h3 : isContinuation b3 = true) :
    decodeEach (b0 :: b1 :: b2 :: b3 :: r) =
      some (Char.ofNat (b0.toNat % 8 * 262144 + b1.toNat % 64 * 4096 + b2.toNat % 64 * 64
        + b3.toNat % 64)) :: decodeEach r := by
  have hascii : ¬b0 < 0x80 := by simp [UInt8.lt_iff_toNat_lt]; omega
  have htwo : (0xC2 ≤ b0 && b0 ≤ 0xDF) = false := by
    simp [UInt8.le_iff_toNat_le]; omega
  have hthree : (0xE0 ≤ b0 && b0 ≤ 0xEF) = false := by
    simp [UInt8.le_iff_toNat_le]; omega
  have hfour : (0xF0 ≤ b0 && b0 ≤ 0xF4) = true := by simpa [UInt8.le_iff_toNat_le] using h0
  rw [decodeEach.eq_def]
  simp only [hascii, htwo, hthree, hfour, h1, h2, h3, if_true, if_false, Bool.false_eq_true]
  rfl

/-- The number of a character that is not a surrogate. -/
theorem toNat_val_ofNat {n : Nat} (h : n.isValidChar) : (Char.ofNat n).val.toNat = n := by
  rw [Char.ofNat, dif_pos h]
  rfl

theorem encode_one (h0 : b0.toNat < 0x80) : String.utf8EncodeChar (Char.ofNat b0.toNat) = [b0] := by
  have hn := toNat_val_ofNat (n := b0.toNat) (.inl (by omega))
  rw [String.utf8EncodeChar, hn, if_pos (by omega), UInt8.ofNat_toNat]

theorem encode_two (h0 : 0xC2 ≤ b0.toNat ∧ b0.toNat ≤ 0xDF) (h1 : isContinuation b1 = true) :
    String.utf8EncodeChar (Char.ofNat (b0.toNat % 32 * 64 + b1.toNat % 64)) = [b0, b1] := by
  rw [isContinuation_iff] at h1
  have hn := toNat_val_ofNat (n := b0.toNat % 32 * 64 + b1.toNat % 64) (.inl (by omega))
  rw [String.utf8EncodeChar, hn, if_neg (by omega), if_pos (by omega)]
  simp only [List.cons.injEq, ← UInt8.toNat_inj, UInt8.toNat_ofNat', and_true]
  omega

theorem encode_three (h0 : 0xE0 ≤ b0.toNat ∧ b0.toNat ≤ 0xEF)
    (h1 : secondOfThree b0 b1 = true) (h2 : isContinuation b2 = true) :
    String.utf8EncodeChar
      (Char.ofNat (b0.toNat % 16 * 4096 + b1.toNat % 64 * 64 + b2.toNat % 64)) = [b0, b1, b2] := by
  rw [isContinuation_iff] at h2
  rw [secondOfThree_iff] at h1
  have hn := toNat_val_ofNat (n := b0.toNat % 16 * 4096 + b1.toNat % 64 * 64 + b2.toNat % 64)
    (by unfold Nat.isValidChar; omega)
  rw [String.utf8EncodeChar, hn, if_neg (by omega), if_neg (by omega), if_pos (by omega)]
  simp only [List.cons.injEq, ← UInt8.toNat_inj, UInt8.toNat_ofNat', and_true]
  omega

theorem encode_four (h0 : 0xF0 ≤ b0.toNat ∧ b0.toNat ≤ 0xF4)
    (h1 : secondOfFour b0 b1 = true) (h2 : isContinuation b2 = true)
    (h3 : isContinuation b3 = true) :
    String.utf8EncodeChar (Char.ofNat (b0.toNat % 8 * 262144 + b1.toNat % 64 * 4096
      + b2.toNat % 64 * 64 + b3.toNat % 64)) = [b0, b1, b2, b3] := by
  rw [isContinuation_iff] at h2 h3
  rw [secondOfFour_iff] at h1
  have hn := toNat_val_ofNat (n := b0.toNat % 8 * 262144 + b1.toNat % 64 * 4096
    + b2.toNat % 64 * 64 + b3.toNat % 64) (by unfold Nat.isValidChar; omega)
  rw [String.utf8EncodeChar, hn, if_neg (by omega), if_neg (by omega), if_neg (by omega)]
  simp only [List.cons.injEq, ← UInt8.toNat_inj, UInt8.toNat_ofNat', and_true]
  omega

end

/-- An encoded character is read back, whatever follows it. -/
theorem decodeEach_encode_append (c : Char) (r : List UInt8) :
    decodeEach (String.utf8EncodeChar c ++ r) = some c :: decodeEach r := by
  have hvalid : c.val.toNat < 0xD800 ∨ 0xDFFF < c.val.toNat ∧ c.val.toNat < 0x110000 := c.valid
  have hback : ∀ n, n = c.val.toNat → Char.ofNat n = c := by
    rintro _ rfl
    exact Char.ofNat_toNat c
  simp only [String.utf8EncodeChar]
  -- the first byte is in the class of its form, and no form is longer than it must be
  split_ifs with hone htwo hthree <;> simp only [List.cons_append, List.nil_append]
  · rw [decodeEach_one (by rw [UInt8.toNat_ofNat']; omega), hback]
    rw [UInt8.toNat_ofNat']
    omega
  · rw [decodeEach_two (by simp only [UInt8.toNat_ofNat']; omega)
      (by simp only [isContinuation_iff, UInt8.toNat_ofNat']; omega), hback]
    simp only [UInt8.toNat_ofNat']
    omega
  · rw [decodeEach_three (by simp only [UInt8.toNat_ofNat']; omega)
      (by simp only [secondOfThree_iff, UInt8.toNat_ofNat']; omega)
      (by simp only [isContinuation_iff, UInt8.toNat_ofNat']; omega), hback]
    simp only [UInt8.toNat_ofNat']
    omega
  · rw [decodeEach_four (by simp only [UInt8.toNat_ofNat']; omega)
      (by simp only [secondOfFour_iff, UInt8.toNat_ofNat']; omega)
      (by simp only [isContinuation_iff, UInt8.toNat_ofNat']; omega)
      (by simp only [isContinuation_iff, UInt8.toNat_ofNat']; omega), hback]
    simp only [UInt8.toNat_ofNat']
    omega

/-- Encoded characters are read back. -/
theorem decodeEach_encode (cs : List Char) :
    decodeEach (cs.flatMap String.utf8EncodeChar) = cs.map some := by
  induction cs with
  | nil => rw [List.flatMap_nil, decodeEach, List.map_nil]
  | cons c r ih => rw [List.flatMap_cons, decodeEach_encode_append, ih, List.map_cons]

theorem exists_encode_append {c : Char} {start rest : List UInt8}
    (hstart : String.utf8EncodeChar c = start)
    (hrest : ∃ cs : List Char, rest = cs.flatMap String.utf8EncodeChar) :
    ∃ cs : List Char, start ++ rest = cs.flatMap String.utf8EncodeChar := by
  obtain ⟨cs, rfl⟩ := hrest
  exact ⟨c :: cs, by rw [List.flatMap_cons, hstart]⟩

/-- Where no stretch is malformed, the bytes are an encoding. -/
theorem exists_eq_encode {bytes : List UInt8} (h : none ∉ decodeEach bytes) :
    ∃ cs : List Char, bytes = cs.flatMap String.utf8EncodeChar := by
  -- four cases read a character, one for each form; all the others are malformed stretches
  fun_induction decodeEach bytes with
  | case1 => exact ⟨[], rfl⟩
  | case2 b0 r h0 ih =>
    refine exists_encode_append (encode_one ?_) (ih (List.not_mem_of_not_mem_cons h))
    exact UInt8.lt_iff_toNat_lt.1 h0
  | case3 b0 _ h0 b1 r h1 ih =>
    refine exists_encode_append (encode_two ?_ h1) (ih (List.not_mem_of_not_mem_cons h))
    simpa [UInt8.le_iff_toNat_le] using h0
  | case6 b0 _ _ h0 b1 h1 b2 r h2 ih =>
    refine exists_encode_append (encode_three ?_ h1 h2) (ih (List.not_mem_of_not_mem_cons h))
    simpa [UInt8.le_iff_toNat_le] using h0
  | case11 b0 _ _ _ h0 b1 h1 b2 h2 b3 r h3 ih =>
    refine exists_encode_append (encode_four ?_ h1 h2 h3) (ih (List.not_mem_of_not_mem_cons h))
    simpa [UInt8.le_iff_toNat_le] using h0
  | _ => simp at h

/-! ### The whole text -/

theorem toList_loop_eq (bytes : ByteArray) (i : Nat) (done : List UInt8) :
    ByteArray.toList.loop bytes i done = done.reverse ++ bytes.data.toList.drop i := by
  fun_induction ByteArray.toList.loop bytes i done with
  | case1 i done hi ih =>
    have hi : i < bytes.data.toList.length := by simpa using hi
    rw [ih, List.drop_eq_getElem_cons hi]
    simp [ByteArray.get!, getElem!_pos bytes.data i (by simpa using hi)]
  | case2 i done hi =>
    have hi : bytes.data.toList.length ≤ i := by simpa using hi
    rw [List.drop_eq_nil_of_le hi, List.append_nil]

theorem toList_eq_data (bytes : ByteArray) : bytes.toList = bytes.data.toList := by
  rw [ByteArray.toList, toList_loop_eq, List.reverse_nil, List.nil_append, List.drop_zero]

/-- The encoding of a list of characters, as a list of bytes. -/
theorem toList_utf8Encode (cs : List Char) :
    cs.utf8Encode.toList = cs.flatMap String.utf8EncodeChar := by
  rw [toList_eq_data, List.utf8Encode, List.toList_data_toByteArray]

theorem toUTF8_eq_utf8Encode (text : String) : text.toUTF8 = text.toList.utf8Encode := by
  rw [← String.toByteArray_ofList, String.ofList_toList]
  rfl

/-- The encoding of a text decodes to the text. -/
theorem decode?_toUTF8 (text : String) : decode? text.toUTF8 = some text := by
  have hvalid : text.toUTF8.IsValidUTF8 := text.isValidUTF8
  rw [decode?, String.fromUTF8?, dif_pos hvalid]
  rfl

/-- Bytes are well formed exactly if the decoder that goes on behind errors meets none. -/
theorem isValidUTF8_iff (bytes : ByteArray) :
    bytes.IsValidUTF8 ↔ none ∉ decodeEach bytes.toList := by
  constructor
  · rintro ⟨cs, rfl⟩
    rw [toList_utf8Encode, decodeEach_encode]
    simp
  · intro h
    obtain ⟨cs, hcs⟩ := exists_eq_encode h
    refine ⟨cs, ?_⟩
    rw [toList_eq_data] at hcs
    rw [List.utf8Encode, ← hcs]
    exact ByteArray.ext (by simp [List.data_toByteArray])

/-- The text of well-formed bytes is what the decoder finds that goes on behind errors. -/
theorem decodeEach_of_decode? {bytes : ByteArray} {text : String} (h : decode? bytes = some text) :
    decodeEach bytes.toList = text.toList.map some := by
  have hbytes : text.toUTF8 = bytes := by
    unfold decode? String.fromUTF8? at h
    split at h
    · exact Option.some.inj h ▸ rfl
    · cases h
  rw [← hbytes, toUTF8_eq_utf8Encode, toList_utf8Encode, decodeEach_encode]

/-- Whatever the bytes, the replacement character stands for each malformed stretch of them. -/
theorem decodeLossy_eq (bytes : ByteArray) : decodeLossy bytes =
    String.ofList ((decodeEach bytes.toList).map (·.getD '\uFFFD')) := by
  unfold decodeLossy
  split
  · next text h =>
    have hsame : ((·.getD '\uFFFD') ∘ some : Char → Char) = id := rfl
    rw [decodeEach_of_decode? h, List.map_map, hsame, List.map_id, String.ofList_toList]
  · rfl

end Bindery.Text.Utf8
