import Bindery.Json.Printer

/-!
# Quoted texts are read back

What is quoted is read back as it was, and reading stops right behind the closing quote. So no quoted
text is the beginning of another one, and a text with quoted parts tells where each of them ends: a
list of quoted texts is known from how it is written, whatever stands behind it.

* `unquote?_quoteChars` : reading what was quoted.
* `quote_append_inj` : no quoted text is the beginning of another one.
* `compact_strings_append_inj` : neither is a list of texts.
-/

namespace Bindery

namespace Json

open Text (hexDigit hexValue?)

variable {c : Char} {r q : List Char}

/-! ## Reading what was quoted -/

/-- What needs no escape is read as it stands. -/
theorem unquoteBody_plain (hquote : c ≠ '"') (hbackslash : c ≠ '\\') (hcontrol : ¬c.toNat < 32)
    (done r : List Char) : unquoteBody done (c :: r) = unquoteBody (c :: done) r := by
  rw [unquoteBody, if_neg hbackslash, if_neg hcontrol]
  all_goals simp [hquote, hbackslash]

/-- A control character without an escape of its own is read from the digits of its number. -/
theorem unquoteBody_control (hcontrol : c.toNat < 32) (done r : List Char) :
    unquoteBody done ('\\' :: 'u' :: '0' :: '0' :: hexDigit (c.toNat / 16) ::
      hexDigit (c.toNat % 16) :: r) = unquoteBody (c :: done) r := by
  have hhigh := Text.hexValue?_hexDigit (c.toNat / 16) (by omega)
  have hlow := Text.hexValue?_hexDigit (c.toNat % 16) (Nat.mod_lt _ (by decide))
  have hunit : hexUnit? '0' '0' (hexDigit (c.toNat / 16)) (hexDigit (c.toNat % 16)) =
      some c.toNat := by
    have hzero : hexValue? '0' = some 0 := by decide
    have hsum : 0 * 4096 + 0 * 256 + c.toNat / 16 * 16 + c.toNat % 16 = c.toNat := by omega
    simp only [hexUnit?, hzero, hhigh, hlow]
    exact congrArg some hsum
  -- the number is too small to be half of a pair
  have hlead : (0xD800 ≤ c.toNat && c.toNat ≤ 0xDBFF) = false := by
    simp
    omega
  have htrail : (0xDC00 ≤ c.toNat && c.toNat ≤ 0xDFFF) = false := by
    simp
    omega
  rw [unquoteBody, hunit]
  simp only [hlead, htrail, Bool.false_eq_true, if_false, Char.ofNat_toNat]

/-- What is written for a character is read as that character. -/
theorem unquoteBody_escapeChar (c : Char) (done r : List Char) :
    unquoteBody done (escapeChar c ++ r) = unquoteBody (c :: done) r := by
  unfold escapeChar
  -- seven characters have escapes of their own
  iterate 7
    split
    · next h =>
      rw [h]
      rfl
  split
  · next hcontrol => exact unquoteBody_control hcontrol done r
  · next hquote hbackslash _ _ _ _ _ hcontrol =>
    exact unquoteBody_plain hquote hbackslash hcontrol done r

/-- What is quoted is read back, and reading stops behind the quotes. -/
theorem unquote?_quoteChars (cs r : List Char) : unquote? (quoteChars cs ++ r) = some (cs, r) := by
  have hbody : ∀ cs done : List Char,
      unquoteBody done (cs.flatMap escapeChar ++ '"' :: r) = some (done.reverse ++ cs, r) := by
    intro cs
    induction cs with
    | nil =>
      intro done
      rw [List.append_nil]
      rfl
    | cons c cs ih =>
      intro done
      rw [List.flatMap_cons, List.append_assoc, unquoteBody_escapeChar, ih, List.reverse_cons,
        List.append_assoc, List.singleton_append]
  have hquoted : quoteChars cs ++ r = '"' :: (cs.flatMap escapeChar ++ '"' :: r) := by
    simp [quoteChars]
  rw [hquoted]
  exact hbody cs []

/-! ## Where quoted texts end -/

theorem toList_quote (s : String) : (quote s).toList = quoteChars s.toList := String.toList_ofList

/-- No quoted text is the beginning of another one. -/
theorem quote_append_inj {s t : String} (h : (quote s).toList ++ r = (quote t).toList ++ q) :
    s = t ∧ r = q := by
  rw [toList_quote, toList_quote] at h
  have hread : some (s.toList, r) = some (t.toList, q) := by
    rw [← unquote?_quoteChars s.toList r, h, unquote?_quoteChars]
  obtain ⟨hs, hr⟩ := Prod.mk.inj (Option.some.inj hread)
  exact ⟨String.toList_inj.1 hs, hr⟩

/-- Quoted texts, each behind a comma. -/
def behindCommas (xs : List String) : List Char := xs.flatMap fun x => ',' :: (quote x).toList

theorem behindCommas_cons (x : String) (xs : List String) :
    behindCommas (x :: xs) = ',' :: ((quote x).toList ++ behindCommas xs) := by
  rw [behindCommas, List.flatMap_cons, List.cons_append]
  rfl

/-- How a list of texts is written. -/
theorem toList_compact_strings (xs : List String) :
    (compact (.arr (xs.map .str))).toList = '[' :: ((behindCommas xs).tail ++ [']']) := by
  have hitems : ∀ xs : List String, compactItems (xs.map .str) = xs.map quote := by
    intro xs
    induction xs with
    | nil => rfl
    | cons x r ih => rw [List.map_cons, compactItems, ih, compact, List.map_cons]
  have hjoin : ∀ xs : List String,
      (joinWith "," (xs.map quote)).toList = (behindCommas xs).tail := by
    intro xs
    induction xs with
    | nil => rfl
    | cons x r ih =>
      cases r with
      | nil => simp [joinWith, behindCommas]
      | cons y r =>
        have hsecond : behindCommas (y :: r) = ',' :: (behindCommas (y :: r)).tail := by
          rw [behindCommas_cons, List.tail_cons]
        rw [behindCommas_cons, List.tail_cons, hsecond, ← ih]
        simp [joinWith]
  rw [compact, hitems, String.toList_append, String.toList_append, hjoin]
  rfl

/-- A list of quoted texts ends where no comma follows. -/
theorem behindCommas_append_inj {xs ys : List String}
    (h : behindCommas xs ++ ']' :: r = behindCommas ys ++ ']' :: q) : xs = ys ∧ r = q := by
  induction xs generalizing ys with
  | nil =>
    cases ys with
    | nil => exact ⟨rfl, (List.cons.inj h).2⟩
    | cons y ys => exact absurd (List.cons.inj h).1 (by decide)
  | cons x xs ih =>
    cases ys with
    | nil => exact absurd (List.cons.inj h).1 (by decide)
    | cons y ys =>
      have hfirst : (quote x).toList ++ (behindCommas xs ++ ']' :: r) =
          (quote y).toList ++ (behindCommas ys ++ ']' :: q) := by
        simpa [behindCommas_cons] using h
      obtain ⟨rfl, hrest⟩ := quote_append_inj hfirst
      obtain ⟨rfl, rfl⟩ := ih hrest
      exact ⟨rfl, rfl⟩

/-- No written list of texts is the beginning of another one. -/
theorem compact_strings_append_inj {xs ys : List String}
    (h : (compact (.arr (xs.map .str))).toList ++ r = (compact (.arr (ys.map .str))).toList ++ q) :
    xs = ys ∧ r = q := by
  rw [toList_compact_strings, toList_compact_strings] at h
  have hitems : (behindCommas xs).tail ++ ']' :: r = (behindCommas ys).tail ++ ']' :: q := by
    simpa using h
  have hquote : ∀ x : String, ∃ cs, (quote x).toList = '"' :: cs :=
    fun x => ⟨_, toList_quote x⟩
  cases xs with
  | nil =>
    cases ys with
    | nil => exact behindCommas_append_inj hitems
    | cons y ys =>
      obtain ⟨cs, hcs⟩ := hquote y
      rw [behindCommas_cons, List.tail_cons, hcs] at hitems
      exact absurd (List.cons.inj hitems).1 (by decide)
  | cons x xs =>
    cases ys with
    | nil =>
      obtain ⟨cs, hcs⟩ := hquote x
      rw [behindCommas_cons, List.tail_cons, hcs] at hitems
      exact absurd (List.cons.inj hitems).1 (by decide)
    | cons y ys =>
      -- with a comma in front, the first text is like the others
      rw [behindCommas_cons, behindCommas_cons, List.tail_cons, List.tail_cons] at hitems
      refine behindCommas_append_inj ?_
      rw [behindCommas_cons, behindCommas_cons, List.cons_append, hitems, List.cons_append]

end Json

end Bindery
