import Bindery.Json.Parser
import Bindery.Proofs.Json.Quoted

/-!
# Objects of texts are read back

A written object whose members are all texts is read back as it was, and reading stops right behind
its closing brace. It stands on one line, whatever the texts hold.

* `Json.lineFeed_notMem_quote`, `Json.lineFeed_notMem_compact` : no text breaks a line.
* `Json.readLiteral?_compact` : reading a written object.
-/

namespace Bindery

namespace Json

open Text (hexDigit hexValue?)

variable {members done : List (String × Json)} {r : List Char} {s : String}

/-- The value of a literal at the start of a text, and the rest of the text. -/
def readLiteral? (cs : List Char) : Option (Json × List Char) := value? (2 * cs.length + 2) 127 cs

/-- All members are texts. -/
def AllTexts (members : List (String × Json)) : Prop := ∀ m ∈ members, ∃ s, m.2 = .str s

/-! ## One line -/

theorem lineFeed_notMem_escapeChar (c : Char) : '\n' ∉ escapeChar c := by
  have hdigit : ∀ n < 16, hexDigit n ≠ '\n' := by decide
  unfold escapeChar
  -- seven characters have escapes of their own
  iterate 7
    split
    · simp
  split
  · next hcontrol =>
    have hhigh := hdigit (c.toNat / 16) (by omega)
    have hlow := hdigit (c.toNat % 16) (Nat.mod_lt _ (by decide))
    simp [hhigh.symm, hlow.symm]
  · next hlineFeed _ _ _ _ _ => simpa using Ne.symm hlineFeed

theorem lineFeed_notMem_quote (s : String) : '\n' ∉ (quote s).toList := by
  rw [toList_quote, quoteChars]
  simp [lineFeed_notMem_escapeChar]

theorem lineFeed_notMem_compact (h : AllTexts members) : '\n' ∉ (compact (.obj members)).toList := by
  have hmembers : '\n' ∉ (joinWith "," (compactMembers members)).toList := by
    induction members with
    | nil => simp [compactMembers, joinWith]
    | cons m r ih =>
      obtain ⟨⟨s, hs⟩, hr⟩ := List.forall_mem_cons.1 h
      have hfirst : '\n' ∉ (quote m.1 ++ ":" ++ compact m.2).toList := by
        simp [hs, compact, lineFeed_notMem_quote]
      have hrest := ih hr
      cases hmore : compactMembers r with
      | nil => simpa [compactMembers, joinWith, hmore] using hfirst
      | cons next more =>
        rw [hmore] at hrest
        simp only [compactMembers, joinWith, hmore, String.toList_append, List.mem_append, not_or]
        simp only [String.toList_append, List.mem_append, not_or] at hfirst
        exact ⟨⟨hfirst, by decide⟩, hrest⟩
  simp [compact, hmembers]

/-! ## Reading back -/

theorem skipSpace_cons {c : Char} (h : isSpace c = false) (r : List Char) :
    skipSpace (c :: r) = c :: r := by
  simp [skipSpace, h]

theorem skipSpace_quote (s : String) (r : List Char) :
    skipSpace ((quote s).toList ++ r) = (quote s).toList ++ r := by
  rw [toList_quote, quoteChars, List.cons_append, List.cons_append]
  exact skipSpace_cons (by decide) _

theorem unquote?_quote (s : String) (r : List Char) :
    unquote? ((quote s).toList ++ r) = some (s.toList, r) := by
  rw [toList_quote, unquote?_quoteChars]

theorem value?_quote (fuel depth : Nat) (s : String) (r : List Char) :
    value? (fuel + 1) depth ((quote s).toList ++ r) = some (.str s, r) := by
  have hread := unquote?_quote s r
  rw [value?, skipSpace_quote]
  rw [toList_quote, quoteChars, List.cons_append, List.cons_append, unquote?] at hread
  rw [toList_quote, quoteChars, List.cons_append, List.cons_append]
  simp only [hread, Option.map_some, String.ofList_toList]

/-- A member of a written object, with more to come. -/
theorem members?_next (fuel depth : Nat) (done : List (String × Json)) (key s : String)
    (r : List Char) :
    members? (fuel + 2) depth done
        ((quote key).toList ++ ':' :: ((quote s).toList ++ ',' :: r)) =
      members? (fuel + 1) depth ((key, .str s) :: done) r := by
  have hcolon : isSpace ':' = false := by decide
  have hcomma : isSpace ',' = false := by decide
  rw [members?, skipSpace_quote, unquote?_quote]
  simp only [skipSpace_cons hcolon, value?_quote, skipSpace_cons hcomma, String.ofList_toList]

/-- The last member of a written object. -/
theorem members?_last (fuel depth : Nat) (done : List (String × Json)) (key s : String)
    (r : List Char) :
    members? (fuel + 2) depth done
        ((quote key).toList ++ ':' :: ((quote s).toList ++ '\x7d' :: r)) =
      some (.obj (done.reverse ++ [(key, .str s)]), r) := by
  have hcolon : isSpace ':' = false := by decide
  have hbrace : isSpace '\x7d' = false := by decide
  rw [members?, skipSpace_quote, unquote?_quote]
  simp only [skipSpace_cons hcolon, value?_quote, skipSpace_cons hbrace, String.ofList_toList,
    List.reverse_cons]

/-- The members of a written object are read up to its closing brace. -/
theorem members?_compactMembers (h : AllTexts members) (hne : members ≠ []) {fuel : Nat}
    (hfuel : members.length < fuel) (depth : Nat) (done : List (String × Json)) (r : List Char) :
    members? fuel depth done ((joinWith "," (compactMembers members)).toList ++ '\x7d' :: r) =
      some (.obj (done.reverse ++ members), r) := by
  induction members generalizing fuel done with
  | nil => exact absurd rfl hne
  | cons m rest ih =>
    obtain ⟨⟨s, hs⟩, hrest⟩ := List.forall_mem_cons.1 h
    obtain ⟨key, value⟩ := m
    obtain rfl : value = .str s := hs
    -- the member takes one step, its text another one
    obtain ⟨fuel, rfl⟩ : ∃ n, fuel = n + 2 := by
      refine ⟨fuel - 2, ?_⟩
      rw [List.length_cons] at hfuel
      omega
    cases rest with
    | nil =>
      have htext : (joinWith "," (compactMembers [(key, .str s)])).toList ++ '\x7d' :: r =
          (quote key).toList ++ ':' :: ((quote s).toList ++ '\x7d' :: r) := by
        simp [compactMembers, joinWith, compact]
      rw [htext, members?_last]
    | cons next more =>
      have htext : (joinWith "," (compactMembers ((key, .str s) :: next :: more))).toList ++
            '\x7d' :: r =
          (quote key).toList ++ ':' :: ((quote s).toList ++
            ',' :: ((joinWith "," (compactMembers (next :: more))).toList ++ '\x7d' :: r)) := by
        simp [compactMembers, joinWith, compact]
      have hlater : (next :: more).length < fuel + 1 := Nat.lt_of_succ_lt_succ hfuel
      rw [htext, members?_next, ih hrest (List.cons_ne_nil _ _) hlater, List.reverse_cons,
        List.append_assoc, List.singleton_append]

theorem length_le_joinWith (members : List (String × Json)) :
    members.length ≤ (joinWith "," (compactMembers members)).toList.length := by
  induction members with
  | nil => exact Nat.zero_le _
  | cons m r ih =>
    have hquote : 2 ≤ (quote m.1).toList.length := by simp [toList_quote, quoteChars]
    cases hmore : compactMembers r with
    | nil =>
      cases r with
      | nil => simp [compactMembers, joinWith]; omega
      | cons next more => cases hmore
    | cons next more =>
      rw [hmore] at ih
      simp only [compactMembers, hmore, joinWith, String.toList_append, List.length_append,
        List.length_cons]
      omega

theorem toList_joinWith_cons (separator first : String) (texts : List String) :
    ∃ more, (joinWith separator (first :: texts)).toList = first.toList ++ more := by
  cases texts with
  | nil => exact ⟨[], (List.append_nil _).symm⟩
  | cons next rest =>
    refine ⟨separator.toList ++ (joinWith separator (next :: rest)).toList, ?_⟩
    simp [joinWith]

/-- A written object of texts is read back, and reading stops behind it. -/
theorem readLiteral?_compact (h : AllTexts members) (r : List Char) :
    readLiteral? ((compact (.obj members)).toList ++ r) = some (.obj members, r) := by
  have htext : (compact (.obj members)).toList ++ r =
      '\x7b' :: ((joinWith "," (compactMembers members)).toList ++ '\x7d' :: r) := by
    simp [compact]
  have hlength := length_le_joinWith members
  obtain ⟨fuel, hfuel, hmore⟩ : ∃ fuel,
      2 * ((compact (.obj members)).toList ++ r).length + 2 = fuel + 1 ∧ members.length < fuel := by
    refine ⟨_, rfl, ?_⟩
    rw [htext, List.length_cons, List.length_append]
    omega
  rw [readLiteral?, hfuel, htext, value?, skipSpace_cons (by decide)]
  simp only
  cases members with
  | nil => rfl
  | cons m rest =>
    have hread := members?_compactMembers h (List.cons_ne_nil _ _) hmore 126 [] r
    obtain ⟨more, hstart⟩ : ∃ more,
        (joinWith "," (compactMembers (m :: rest))).toList ++ '\x7d' :: r = '\"' :: more := by
      obtain ⟨more, hjoin⟩ := toList_joinWith_cons "," (quote m.1 ++ ":" ++ compact m.2)
        (compactMembers rest)
      rw [compactMembers, hjoin, String.toList_append, String.toList_append, toList_quote, quoteChars]
      exact ⟨_, rfl⟩
    -- the first member opens with a quotation mark, which is no closing brace
    have hquote : isSpace '\"' = false := by decide
    rw [hstart] at hread ⊢
    simp only [skipSpace_cons hquote]
    exact hread

end Json

end Bindery
