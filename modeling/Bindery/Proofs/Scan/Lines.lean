import Mathlib.Data.List.Pairwise
import Mathlib.Data.List.Sort
import Bindery.Proofs.Scan.Imports
import Bindery.Proofs.Scan.Matcher

/-!
# Searching line by line

A search goes over stretches in which no match begins and jumps over those that are matched. Where the
lines of a text are such that no match goes from one into the next, the matches of the text are those
of its lines, each at its place.

* `found_of_unmatched`, `found_of_prefers`, `found_of_one` : one stretch of a search.
* `InLines` : a text is made of lines.
* `found_inLines` : from the lines to the text.
* `inTextOrder_of_perm` : what is left of imports when they are put in order.
-/

namespace Bindery.Scan

variable {m : Matcher} {c e : Cursor} {t rest : List Char}

/-! ## One stretch -/

/-- The matches behind a place. -/
def found (m : Matcher) (c : Cursor) : List Found := findFrom m c.before c.index 0 [] c.rest

/-- No match begins in the stretch. -/
def Unmatched (m : Matcher) (c : Cursor) (t rest : List Char) : Prop :=
  ∀ first others, t = first ++ others → others ≠ [] → m (c.past first (others ++ rest)) = []

/-- Nothing is captured yet. -/
structure Cursor.Fresh (c : Cursor) : Prop where
  captured : c.captured = none

theorem Cursor.Fresh.past (h : c.Fresh) (t rest : List Char) : (c.past t rest).Fresh := ⟨h.captured⟩

theorem Cursor.Fresh.eq (h : c.Fresh) :
    { before := c.before, rest := c.rest, index := c.index : Cursor } = c := by
  obtain ⟨before, rest, index, captured⟩ := c
  obtain rfl := h.captured
  rfl

theorem findFrom_eq_append (m : Matcher) (before : Option Char) (index skip : Nat)
    (done : List Found) (text : List Char) :
    findFrom m before index skip done text =
      done.reverse ++ findFrom m before index skip [] text := by
  induction text generalizing before index skip done with
  | nil => simp [findFrom]
  | cons ch r ih =>
    unfold findFrom
    split
    · exact ih _ _ _ _
    · split
      · rw [ih, ih _ _ _ [_]]
        simp
      · exact ih _ _ _ _

/-- What is skipped does not count. -/
theorem findFrom_skip (m : Matcher) (before : Option Char) (index : Nat) (done : List Found)
    (t rest : List Char) :
    findFrom m before index t.length done (t ++ rest) =
      findFrom m (t.getLast?.or before) (index + t.length) 0 done rest := by
  induction t generalizing before index with
  | nil => simp
  | cons ch r ih =>
    rw [List.length_cons, List.cons_append, findFrom, ih, List.getLast?_cons]
    congr 1
    · cases r.getLast? <;> rfl
    · omega

theorem found_of_unmatched (hc : c.Fresh) (hrest : c.rest = t ++ rest) (h : Unmatched m c t rest) :
    found m c = found m (c.past t rest) := by
  induction t generalizing c with
  | nil =>
    obtain rfl : c.rest = rest := hrest
    rw [Cursor.past_nil]
  | cons ch r ih =>
    have hnone : m c = [] := by
      have hfirst := h [] (ch :: r) rfl (List.cons_ne_nil _ _)
      rwa [← hrest, Cursor.past_nil] at hfirst
    have hstep : found m c = found m (c.past [ch] (r ++ rest)) := by
      rw [List.cons_append] at hrest
      rw [found, hrest, findFrom, ← hrest, hc.eq, hnone]
      rfl
    rw [hstep, ih (hc.past _ _) rfl, Cursor.past_past, List.singleton_append]
    intro first others hr hne
    rw [Cursor.past_past, List.singleton_append]
    exact h (ch :: first) others (by rw [hr]; rfl) hne

theorem found_of_prefers (hc : c.Fresh) (hrest : c.rest = t ++ rest) (ht : t ≠ [])
    (he : Prefers m c e) (hstop : e.index = c.index + t.length) :
    found m c = ⟨c.index, e.index, e.captured⟩ :: found m (c.past t rest) := by
  cases t with
  | nil => exact absurd rfl ht
  | cons ch r =>
    rw [List.cons_append] at hrest
    have hskip : e.index - c.index - 1 = r.length := by
      rw [hstop, List.length_cons]
      omega
    rw [found, hrest, findFrom, ← hrest, hc.eq, show (m c).head? = some e from he]
    simp only [hskip]
    rw [findFrom_skip, findFrom_eq_append, found, Cursor.past, List.getLast?_cons, hstop,
      List.length_cons]
    have hbefore : (some (r.getLast?.getD ch)).or c.before = r.getLast?.or (some ch) := by
      cases r.getLast? <;> rfl
    rw [hbefore, show c.index + 1 + r.length = c.index + (r.length + 1) by omega]
    rfl

/-- In a stretch in which a match begins at one place only, that match is found and no other one. -/
theorem found_of_one {front middle back : List Char} (hc : c.Fresh)
    (hrest : c.rest = front ++ (middle ++ back) ++ rest) (hmiddle : middle ≠ [])
    (hbegins : ∀ a b, front ++ (middle ++ back) = a ++ b → b ≠ [] →
      m (c.past a (b ++ rest)) ≠ [] → a = front)
    (hmatch : Prefers m (c.past front (middle ++ (back ++ rest))) e)
    (hstop : e.index = c.index + (front.length + middle.length)) :
    found m c = ⟨c.index + front.length, e.index, e.captured⟩ ::
      found m (c.past (front ++ (middle ++ back)) rest) := by
  -- a match in front or behind would begin at another place than the one match
  have hfront : Unmatched m c front (middle ++ (back ++ rest)) := by
    intro a b h hb
    by_contra hne
    have hplace := hbegins a (b ++ (middle ++ back)) (by rw [h, List.append_assoc]) (by simp [hb])
      (by simpa using hne)
    rw [hplace] at h
    exact hb (List.append_right_eq_self.1 h.symm)
  have hback : Unmatched m (c.past (front ++ middle) (back ++ rest)) back rest := by
    intro a b h hb
    by_contra hne
    have hplace := hbegins (front ++ (middle ++ a)) b (by simp [h]) hb (by simpa using hne)
    have hlength := congrArg List.length hplace
    have hpos := List.length_pos_iff.2 hmiddle
    simp only [List.length_append] at hlength
    omega
  have hparts : c.rest = front ++ (middle ++ (back ++ rest)) := by simpa using hrest
  have hindex : (c.past front (middle ++ (back ++ rest))).index = c.index + front.length := rfl
  rw [found_of_unmatched hc hparts hfront,
    found_of_prefers (hc.past _ _) rfl hmiddle hmatch (by rw [hstop, hindex, Nat.add_assoc]),
    Cursor.past_past, found_of_unmatched (hc.past _ _) rfl hback, Cursor.past_past,
    List.append_assoc, hindex]

/-! ## Lines -/

/-- A text is made of the lines: each ends in a line break, but the last one may also end with the
text. -/
inductive InLines : List (List Char) → List Char → Prop
  | nothing : InLines [] []
  | last (line : List Char) : InLines [line] line
  | next (line : List Char) {lines : List (List Char)} {text : List Char} (h : InLines lines text) :
    InLines (line :: lines) (line ++ '\n' :: text)

/-- Lines that are joined are lines of the text. -/
theorem inLines_intercalate (lines : List String) :
    InLines (lines.map String.toList) ("\n".intercalate lines).toList := by
  have hbreak : "\n".toList = ['\n'] := by decide
  rw [String.toList_intercalate, hbreak]
  induction lines with
  | nil => exact .nothing
  | cons line r ih =>
    cases r with
    | nil => simpa using InLines.last line.toList
    | cons next r => simpa [List.intercalate_cons_cons] using InLines.next line.toList ih

/-- How a line ends: with a line break, or with the text. -/
inductive LineEnd : List Char → List Char → Prop
  | lineBreak (rest : List Char) : LineEnd ['\n'] rest
  | text : LineEnd [] []

/-- The start of a line. -/
structure Cursor.AtLine (c : Cursor) : Prop extends c.Fresh where
  before : c.before = none ∨ c.before = some '\n'

variable {α β : Type}

/-- Each line with the place at which it begins. -/
def starts (write : α → List Char) : Nat → List α → List (Nat × α)
  | _, [] => []
  | index, a :: r => (index, a) :: starts write (index + (write a).length + 1) r

/-- Lines do not overlap. -/
theorem pairwise_starts (write : α → List Char) (index : Nat) (lines : List α) :
    (starts write index lines).Pairwise fun a b => a.1 + (write a.2).length < b.1 := by
  suffices hall : (∀ b ∈ starts write index lines, index ≤ b.1) ∧
      (starts write index lines).Pairwise fun a b => a.1 + (write a.2).length < b.1 from hall.2
  induction lines generalizing index with
  | nil => exact ⟨fun _ h => (List.not_mem_nil h).elim, List.Pairwise.nil⟩
  | cons a r ih =>
    obtain ⟨hle, hpairwise⟩ := ih (index + (write a).length + 1)
    constructor
    · intro b hb
      rcases List.mem_cons.1 hb with rfl | hb
      · exact Nat.le_refl _
      · have := hle b hb
        omega
    · refine List.Pairwise.cons ?_ hpairwise
      intro b hb
      have := hle b hb
      show index + (write a).length < b.1
      omega

/-- Lines that have no place in common. -/
def Apart (write : α → List Char) (a b : Nat × α) : Prop :=
  a.1 + (write a.2).length < b.1 ∨ b.1 + (write b.2).length < a.1

instance (write : α → List Char) : Std.Symm (Apart write) := ⟨fun _ _ h => h.symm⟩

/-- Lines that have a place in common are the same one. -/
theorem eq_of_overlap {write : α → List Char} {index : Nat} {lines : List α} {a b : Nat × α}
    (ha : a ∈ starts write index lines) (hb : b ∈ starts write index lines)
    (hab : a.1 ≤ b.1 + (write b.2).length) (hba : b.1 ≤ a.1 + (write a.2).length) : a = b := by
  by_contra hne
  have hpairwise : (starts write index lines).Pairwise (Apart write) :=
    (pairwise_starts write index lines).imp fun h => .inl h
  rcases hpairwise.forall ha hb hne with h | h
  · omega
  · omega

theorem map_snd_starts (write : α → List Char) (index : Nat) (lines : List α) :
    (starts write index lines).map Prod.snd = lines := by
  induction lines generalizing index with
  | nil => rfl
  | cons a r ih => rw [starts, List.map_cons, ih]

/-- What is found in a text is what is found in its lines. -/
theorem found_inLines {write : α → List Char} {finds : Nat × α → Option Found} {lines : List α}
    {text : List Char} (htext : InLines (lines.map write) text)
    (hline : ∀ a ∈ lines, ∀ (c : Cursor) (ending rest : List Char), c.AtLine →
      LineEnd ending rest → c.rest = write a ++ ending ++ rest →
      found m c = (finds (c.index, a)).toList ++ found m (c.past (write a ++ ending) rest))
    (hc : c.AtLine) (hrest : c.rest = text) :
    found m c = (starts write c.index lines).filterMap finds := by
  induction lines generalizing c text with
  | nil =>
    cases htext
    rw [found, hrest]
    rfl
  | cons a r ih =>
    have hfirst := hline a List.mem_cons_self
    rw [List.map_cons] at htext
    -- the lines are made a variable, so that the cases of the text can be told apart
    generalize hlines : write a :: r.map write = written at htext
    have hstarts : (starts write c.index (a :: r)).filterMap finds =
        (finds (c.index, a)).toList ++
          (starts write (c.index + (write a).length + 1) r).filterMap finds := by
      rw [starts, List.filterMap_cons]
      cases finds (c.index, a) <;> rfl
    rw [hstarts]
    cases htext with
    | nothing => cases hlines
    | last line =>
      obtain ⟨rfl, hr⟩ := List.cons.inj hlines
      obtain rfl := List.map_eq_nil_iff.1 hr
      rw [hfirst c [] [] hc .text (by simp [hrest])]
      rfl
    | @next line lines text h =>
      obtain ⟨rfl, rfl⟩ := List.cons.inj hlines
      rw [hfirst c ['\n'] text hc (.lineBreak text) (by simp [hrest])]
      have hnext : (c.past (write a ++ ['\n']) text).AtLine :=
        { hc.toFresh.past _ _ with before := .inr (by simp [Cursor.past]) }
      rw [ih h (fun b hb => hline b (List.mem_cons_of_mem _ hb)) hnext rfl]
      simp [Cursor.past, Nat.add_assoc]

theorem findAll_inLines {write : α → List Char} {finds : Nat × α → Option Found} {lines : List α}
    {text : List Char} (htext : InLines (lines.map write) text)
    (hline : ∀ a ∈ lines, ∀ (c : Cursor) (ending rest : List Char), c.AtLine →
      LineEnd ending rest → c.rest = write a ++ ending ++ rest →
      found m c = (finds (c.index, a)).toList ++ found m (c.past (write a ++ ending) rest)) :
    findAll m text = (starts write 0 lines).filterMap finds := by
  have hstart : Cursor.AtLine { before := none, rest := text, index := 0 } :=
    { captured := rfl, before := .inl rfl }
  exact found_inLines htext hline hstart rfl

/-! ## Names -/

/-- An ASCII character of an identifier. -/
def isIdentifierChar (c : Char) : Bool := c.isAlphanum || c = '_' || c = '$'

theorem isNameChar_of_isIdentifierChar {ch : Char} (h : isIdentifierChar ch = true) :
    isNameChar ch = true := by
  simp only [isIdentifierChar, Bool.or_eq_true, decide_eq_true_eq] at h
  rcases h with (halpha | rfl) | rfl
  · have hascii : ch.toNat < 128 := by
      -- the three ranges of ASCII letters and digits
      change ((decide ('A'.val ≤ ch.val ∧ ch.val ≤ 'Z'.val) ||
        (decide ('a'.val ≤ ch.val) && decide (ch.val ≤ 'z'.val))) ||
        (decide ('0'.val ≤ ch.val) && decide (ch.val ≤ '9'.val))) = true at halpha
      simp only [Bool.or_eq_true, Bool.and_eq_true, decide_eq_true_eq,
        UInt32.le_iff_toNat_le] at halpha
      simp at halpha
      omega
    simp [isNameChar, Unicode.isWord, hascii, halpha]
  · decide
  · decide

structure Identifier where
  text : String
  nonempty : text ≠ ""
  ascii : ∀ ch ∈ text.toList, isIdentifierChar ch = true

/-! ## Imports in order -/

theorem dropRepeated_concat (imports : List Import) (i : Import) :
    dropRepeated (imports ++ [i]) =
      if (dropRepeated imports).any fun k => k.specifier == i.specifier && k.kind == i.kind then
        dropRepeated imports
      else dropRepeated imports ++ [i] := by
  simp [dropRepeated, List.foldl_append]

theorem dropRepeated_eq_eraseDups {imports : List Import}
    (h : ∀ i ∈ imports, i.resolved = none) : dropRepeated imports = imports.eraseDups := by
  induction imports using List.reverseRecOn with
  | nil => rfl
  | append_singleton r i ih =>
    have hr : ∀ j ∈ r, j.resolved = none := fun j hj => h j (List.mem_append_left _ hj)
    -- what was kept is what came before, as no import is resolved yet
    have hany : ((dropRepeated r).any fun k => k.specifier == i.specifier && k.kind == i.kind) =
        true ↔ i ∈ r := by
      simp only [List.any_eq_true, Bool.and_eq_true, beq_iff_eq]
      constructor
      · rintro ⟨k, hk, hspecifier, hkind⟩
        have hmem := mem_dropRepeated hk
        have hki : k = i := by
          obtain ⟨s, u, resolved⟩ := k
          obtain rfl : resolved = none := hr _ hmem
          obtain ⟨s', u', resolved'⟩ := i
          obtain rfl : resolved' = none := h _ (List.mem_append_right _ List.mem_cons_self)
          obtain rfl : s = s' := hspecifier
          obtain rfl : u = u' := hkind
          rfl
        exact hki ▸ hmem
      · exact exists_mem_dropRepeated
    rw [dropRepeated_concat, List.eraseDups_append, ← ih hr]
    by_cases hi : i ∈ r
    · rw [if_pos (hany.2 hi)]
      simp [List.removeAll, hi]
    · rw [if_neg (hi ∘ hany.1)]
      simp [List.removeAll, hi, List.eraseDups_cons]

/-- Imports that are found in whatever order are put in the order of their places. -/
theorem inTextOrder_of_perm {imports placed : List Placed} (hperm : imports.Perm placed)
    (hplaced : placed.Pairwise fun a b => a.1 < b.1) (h : ∀ a ∈ placed, a.2.resolved = none) :
    inTextOrder imports = (placed.map Prod.snd).eraseDups := by
  have hsorted : (imports.mergeSort fun a b => a.1 ≤ b.1) = placed := by
    have hmerged := imports.mergeSort_perm (fun a b => decide (a.1 ≤ b.1))
    -- two lists in order with the same members are one, since no two places are the same
    have hle : placed.Pairwise fun a b => a.1 ≤ b.1 := hplaced.imp Nat.le_of_lt
    refine List.Perm.eq_of_pairwise ?_ ?_ hle (hmerged.trans hperm)
    · intro a b ha hb hab hba
      have hnodup : (placed.map Prod.fst).Nodup :=
        List.pairwise_map.2 (hplaced.imp fun hlt => Nat.ne_of_lt hlt)
      have hmem : a ∈ placed := (hmerged.trans hperm).mem_iff.1 ha
      exact List.inj_on_of_nodup_map hnodup hmem hb (Nat.le_antisymm hab hba)
    · refine (List.pairwise_mergeSort ?_ ?_ imports).imp fun h => of_decide_eq_true h
      · intro a b d hab hbd
        exact decide_eq_true (Nat.le_trans (of_decide_eq_true hab) (of_decide_eq_true hbd))
      · intro a b
        simpa using Nat.le_total a.1 b.1
  rw [inTextOrder, hsorted]
  refine dropRepeated_eq_eraseDups ?_
  intro i hi
  obtain ⟨a, ha, rfl⟩ := List.mem_map.1 hi
  exact h a ha

end Bindery.Scan
