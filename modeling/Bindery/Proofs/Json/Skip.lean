import Mathlib.Data.List.TakeDrop
import Bindery.Json.Skip

/-!
# Passing over what can be read

Where the strict reader takes a value off the start of a text, the same stretch is passed over. The
converse fails: what is passed over may be malformed in ways that nobody looks at.

* `Json.take?_map` : reading off a text without malformed stretches.
* `Json.skipText?_map` : passing over a text that can be read.
* `Json.readAs_of_value?` : how a value is read, by the character that it starts with.
* `Json.passes` : passing over a value, the items of an array, the members of an object.
-/

namespace Bindery.Json

variable {cs r : List Char}

@[simp] theorem skipBlanks_map (cs : List Char) :
    skipBlanks (cs.map some) = (skipSpace cs).map some := by
  simp [skipBlanks, skipSpace, List.dropWhile_map, Function.comp_def]

@[simp] theorem readable_map (cs : List Char) : readable (cs.map some) = cs := by
  induction cs with
  | nil => rfl
  | cons c r ih => rw [List.map_cons, readable, ih]

/-- What is read off the start of a text is read off it where its malformed stretches are marked,
if there are none. -/
theorem take?_map {α : Type} {reader : List Char → Option (α × List Char)} {a : α}
    (h : reader cs = some (a, r)) (hrest : r <:+ cs) :
    take? reader (cs.map some) = some (a, r.map some) := by
  obtain ⟨start, rfl⟩ := hrest
  have hlength : (start ++ r).length - r.length = (start.map some).length := by simp
  rw [take?, readable_map, h]
  simp only [Option.map_some]
  rw [hlength, List.map_append, List.drop_left]

theorem skipWord?_map {word : List Char} (h : word? word cs = some r) :
    skipWord? word (cs.map some) = some (r.map some) := by
  unfold word? at h
  split at h
  · next hstart =>
    obtain ⟨rest, rfl⟩ := List.isPrefixOf_iff_prefix.1 hstart
    obtain rfl : rest = r := by simpa using h
    have hstart : (word.map some).isPrefixOf ((word ++ rest).map some) = true := by
      simp [List.isPrefixOf_iff_prefix]
    rw [skipWord?, if_pos hstart]
    simp
  · cases h

/-! ## Texts -/

theorem suffix_of_unquoteBody {done s : List Char} (h : unquoteBody done cs = some (s, r)) :
    r <:+ cs := by
  fun_induction unquoteBody done cs with
  | case2 done r' =>
    obtain rfl : r' = r := by simpa using (Prod.mk.inj (Option.some.inj h)).2
    exact List.suffix_cons _ _
  | case3 _ _ ih | case4 _ _ ih | case5 _ _ ih | case6 _ _ ih | case7 _ _ ih | case8 _ _ ih
  | case9 _ _ ih | case10 _ _ ih => exact (ih h).trans (List.suffix_append [_, _] _)
  | case13 _ _ _ _ _ _ _ _ _ _ _ _ _ _ _ _ ih =>
    exact (ih h).trans (List.suffix_append [_, _, _, _, _, _, _, _, _, _, _, _] _)
  | case17 _ _ _ _ _ _ _ _ _ _ ih =>
    exact (ih h).trans (List.suffix_append [_, _, _, _, _, _] _)
  | case20 _ _ _ _ _ _ _ _ _ _ _ _ _ _ _ ih => exact (ih h).trans (List.suffix_cons _ _)
  | _ => cases h

theorem skipText?_plain {c : Char} (hquote : c ≠ '"') (hbackslash : c ≠ '\\')
    (hcontrol : ¬c.toNat < 32) (r : Marked) : skipText? (some c :: r) = skipText? r := by
  rw [skipText?, if_neg (by simp [hbackslash, hcontrol])]
  all_goals simp [hquote, hbackslash]

/-- A text that can be read can be passed over. -/
theorem skipText?_map {done s : List Char} (h : unquoteBody done cs = some (s, r)) :
    skipText? (cs.map some) = some (r.map some) := by
  fun_induction unquoteBody done cs with
  | case2 done r' =>
    obtain rfl : r' = r := by simpa using (Prod.mk.inj (Option.some.inj h)).2
    simp [skipText?]
  | case3 _ _ ih | case4 _ _ ih | case5 _ _ ih | case6 _ _ ih | case7 _ _ ih | case8 _ _ ih
  | case9 _ _ ih | case10 _ _ ih => simpa [skipText?] using ih h
  | case13 _ _ _ _ _ _ hfirst _ _ _ _ _ _ _ hsecond _ ih =>
    simpa [skipText?, hfirst, hsecond] using ih h
  | case17 _ _ _ _ _ _ _ hunit _ _ ih => simpa [skipText?, hunit] using ih h
  | case20 done c _ hquote _ _ _ _ _ _ _ _ _ hbackslash hcontrol ih =>
    rw [List.map_cons, skipText?_plain hquote hbackslash hcontrol]
    exact ih h
  | _ => cases h

/-! ## Numbers -/

theorem suffix_of_spanDigits {ds : List Char} (h : spanDigits cs = (ds, r)) : r <:+ cs := by
  rw [spanDigits, List.span_eq_takeWhile_dropWhile] at h
  obtain ⟨-, rfl⟩ := Prod.mk.inj h
  exact List.dropWhile_suffix _

theorem suffix_of_fraction? {frac : List Char} (h : fraction? cs = some (frac, r)) : r <:+ cs := by
  unfold fraction? at h
  split at h
  · split at h
    · cases h
    · next hspan =>
      obtain ⟨-, rfl⟩ := Prod.mk.inj (Option.some.inj h)
      exact (suffix_of_spanDigits hspan).trans (List.suffix_cons _ _)
  · obtain ⟨-, rfl⟩ := Prod.mk.inj (Option.some.inj h)
    exact List.suffix_refl _

theorem suffix_of_exponent? {expo : List Char} (h : exponent? cs = some (expo, r)) : r <:+ cs := by
  unfold exponent? at h
  split at h
  · next c r' =>
    split at h
    · split at h
      next sign q hsign =>
      have hq : q <:+ c :: r' := by
        split at hsign
        all_goals obtain ⟨-, rfl⟩ := Prod.mk.inj hsign
        · exact List.suffix_append [c, '+'] _
        · exact List.suffix_append [c, '-'] _
        · exact List.suffix_cons _ _
      split at h
      · cases h
      · next hspan =>
        obtain ⟨-, rfl⟩ := Prod.mk.inj (Option.some.inj h)
        exact (suffix_of_spanDigits hspan).trans hq
    · obtain ⟨-, rfl⟩ := Prod.mk.inj (Option.some.inj h)
      exact List.suffix_refl _
  · obtain ⟨-, rfl⟩ := Prod.mk.inj (Option.some.inj h)
    exact List.suffix_refl _

theorem suffix_of_numeral? {parts : List Char × List Char × List Char}
    (h : numeral? cs = some (parts, r)) : r <:+ cs := by
  unfold numeral? at h
  split at h
  · cases h
  · cases h
  · next hspan =>
    split at h
    · cases h
    · next hfraction =>
      obtain ⟨⟨expo, r'⟩, hexponent, heq⟩ := Option.map_eq_some_iff.1 h
      obtain ⟨-, rfl⟩ := Prod.mk.inj heq
      exact (suffix_of_exponent? hexponent).trans
        ((suffix_of_fraction? hfraction).trans (suffix_of_spanDigits hspan))

/-- A number that can be read can be passed over. -/
theorem skipNumber?_map {negative : Bool} {v : Json} (h : number? negative cs = some (v, r)) :
    skipNumber? (cs.map some) = some (r.map some) := by
  unfold number? at h
  split at h
  · cases h
  · next parts rest hnumeral =>
    obtain rfl : rest = r := by
      dsimp only at h
      split at h
      · cases h
      · split at h
        · exact (Prod.mk.inj (Option.some.inj h)).2
        · exact (Prod.mk.inj (Option.some.inj h)).2
    rw [skipNumber?, take?_map hnumeral (suffix_of_numeral? hnumeral)]
    rfl

/-! ## How the strict reader goes on -/

/-- How a value is read, by the character that it starts with. -/
inductive ReadAs (fuel : Nat) : List Char → Json → List Char → Prop
  | null {q r : List Char} (h : word? ['u', 'l', 'l'] q = some r) : ReadAs fuel ('n' :: q) .null r
  | true {q r : List Char} (h : word? ['r', 'u', 'e'] q = some r) :
    ReadAs fuel ('t' :: q) (.bool true) r
  | false {q r : List Char} (h : word? ['a', 'l', 's', 'e'] q = some r) :
    ReadAs fuel ('f' :: q) (.bool false) r
  | text {q s r : List Char} (h : unquoteBody [] q = some (s, r)) :
    ReadAs fuel ('"' :: q) (.str (String.ofList s)) r
  | emptyArray {q r : List Char} (h : skipSpace q = ']' :: r) : ReadAs fuel ('[' :: q) (.arr []) r
  | array {depth : Nat} {q r : List Char} {v : Json} (hopen : ∀ p, skipSpace q ≠ ']' :: p)
    (h : items? fuel depth [] (skipSpace q) = some (v, r)) : ReadAs fuel ('[' :: q) v r
  | emptyObject {q r : List Char} (h : skipSpace q = '\x7d' :: r) :
    ReadAs fuel ('\x7b' :: q) (.obj []) r
  | object {depth : Nat} {q r : List Char} {v : Json} (hopen : ∀ p, skipSpace q ≠ '\x7d' :: p)
    (h : members? fuel depth [] (skipSpace q) = some (v, r)) : ReadAs fuel ('\x7b' :: q) v r
  | negative {q r : List Char} {v : Json} (h : number? Bool.true q = some (v, r)) :
    ReadAs fuel ('-' :: q) v r
  | number {c : Char} {q r : List Char} {v : Json} (hdigit : c.isDigit = Bool.true)
    (h : number? Bool.false (c :: q) = some (v, r)) : ReadAs fuel (c :: q) v r

theorem readAs_of_value? {fuel depth : Nat} {v : Json}
    (h : value? (fuel + 1) depth cs = some (v, r)) : ReadAs fuel (skipSpace cs) v r := by
  unfold value? at h
  split at h
  · cases h
  · next hspace =>
    obtain ⟨q, hword, heq⟩ := Option.map_eq_some_iff.1 h
    obtain ⟨rfl, rfl⟩ := Prod.mk.inj heq
    exact hspace ▸ .null hword
  · next hspace =>
    obtain ⟨q, hword, heq⟩ := Option.map_eq_some_iff.1 h
    obtain ⟨rfl, rfl⟩ := Prod.mk.inj heq
    exact hspace ▸ .true hword
  · next hspace =>
    obtain ⟨q, hword, heq⟩ := Option.map_eq_some_iff.1 h
    obtain ⟨rfl, rfl⟩ := Prod.mk.inj heq
    exact hspace ▸ .false hword
  · next hspace =>
    obtain ⟨⟨s, q⟩, htext, heq⟩ := Option.map_eq_some_iff.1 h
    obtain ⟨rfl, rfl⟩ := Prod.mk.inj heq
    exact hspace ▸ .text htext
  · next hspace =>
    split at h
    · cases h
    · split at h
      · next hclose =>
        obtain ⟨rfl, rfl⟩ := Prod.mk.inj (Option.some.inj h)
        exact hspace ▸ .emptyArray hclose
      · next hopen => exact hspace ▸ .array hopen h
  · next hspace =>
    split at h
    · cases h
    · split at h
      · next hclose =>
        obtain ⟨rfl, rfl⟩ := Prod.mk.inj (Option.some.inj h)
        exact hspace ▸ .emptyObject hclose
      · next hopen => exact hspace ▸ .object hopen h
  · next hspace => exact hspace ▸ .negative h
  · next hspace =>
    split at h
    · next hdigit => exact hspace ▸ .number hdigit h
    · cases h

theorem exists_of_number? {negative : Bool} {v : Json} (h : number? negative cs = some (v, r)) :
    (∃ i, v = .int i) ∨ ∃ text, v = .decimal text := by
  unfold number? at h
  split at h
  · cases h
  · dsimp only at h
    split at h
    · cases h
    · split at h
      · exact .inl ⟨_, (Prod.mk.inj (Option.some.inj h)).1.symm⟩
      · exact .inr ⟨_, (Prod.mk.inj (Option.some.inj h)).1.symm⟩

theorem exists_of_items? {fuel depth : Nat} {done : List Json} {v : Json}
    (h : items? fuel depth done cs = some (v, r)) : ∃ all, v = .arr all := by
  induction fuel generalizing done cs with
  | zero => simp [items?] at h
  | succ fuel ih =>
    unfold items? at h
    split at h
    · cases h
    · split at h
      · exact ih h
      · exact ⟨_, (Prod.mk.inj (Option.some.inj h)).1.symm⟩
      · cases h

theorem exists_of_unquote? {s : List Char} (h : unquote? cs = some (s, r)) :
    ∃ q, cs = '"' :: q ∧ unquoteBody [] q = some (s, r) := by
  unfold unquote? at h
  split at h
  · exact ⟨_, rfl, h⟩
  · cases h

/-- How a member is read: a text, a colon and a value, and then a comma and further members or the
closing brace. -/
inductive MemberRead (fuel depth : Nat) (done : List (String × Json)) (cs : List Char) (v : Json)
    (r : List Char) : Prop
  | more {body name behindName start behindValue q : List Char} {value : Json}
    (hquote : skipSpace cs = '"' :: body) (hname : unquoteBody [] body = some (name, behindName))
    (hcolon : skipSpace behindName = ':' :: start)
    (hvalue : value? fuel depth start = some (value, behindValue))
    (hcomma : skipSpace behindValue = ',' :: q)
    (hmembers : members? fuel depth ((String.ofList name, value) :: done) q = some (v, r))
  | last {body name behindName start behindValue : List Char} {value : Json}
    (hquote : skipSpace cs = '"' :: body) (hname : unquoteBody [] body = some (name, behindName))
    (hcolon : skipSpace behindName = ':' :: start)
    (hvalue : value? fuel depth start = some (value, behindValue))
    (hclose : skipSpace behindValue = '\x7d' :: r)
    (hall : .obj ((String.ofList name, value) :: done).reverse = v)

theorem memberRead_of_members? {fuel depth : Nat} {done : List (String × Json)} {v : Json}
    (h : members? (fuel + 1) depth done cs = some (v, r)) : MemberRead fuel depth done cs v r := by
  unfold members? at h
  split at h
  · cases h
  · next hunquote =>
    obtain ⟨body, hquote, hname⟩ := exists_of_unquote? hunquote
    split at h
    · next hcolon =>
      split at h
      · cases h
      · next hvalue =>
        split at h
        · next hcomma => exact .more hquote hname hcolon hvalue hcomma h
        · next hclose =>
          obtain ⟨hall, rfl⟩ := Prod.mk.inj (Option.some.inj h)
          exact .last hquote hname hcolon hvalue hclose hall
        · cases h
    · cases h

/-- The members of an object are the ones read before and those that are read now. -/
theorem exists_of_members? {fuel depth : Nat} {done : List (String × Json)} {v : Json}
    (h : members? fuel depth done cs = some (v, r)) : ∃ more, v = .obj (done.reverse ++ more) := by
  induction fuel generalizing done cs with
  | zero => simp [members?] at h
  | succ fuel ih =>
    cases memberRead_of_members? h with
    | more _ _ _ _ _ hmembers =>
      obtain ⟨more, rfl⟩ := ih hmembers
      exact ⟨_, by rw [List.reverse_cons, List.append_assoc]⟩
    | last _ _ _ _ _ hall => exact ⟨_, by rw [← hall, List.reverse_cons]⟩

/-! ## Values -/

theorem exists_of_map_some {c : Char} {q : Marked} (h : cs.map some = some c :: q) :
    ∃ r, cs = c :: r := by
  obtain ⟨d, r, rfl, hd, -⟩ := List.map_eq_cons_iff.1 h
  obtain rfl : d = c := Option.some.inj hd
  exact ⟨r, rfl⟩

/-- What each reader takes off the start of a text is passed over, `fuel` being the same. -/
structure Passes (fuel : Nat) : Prop where
  value : ∀ {depth cs v r}, value? fuel depth cs = some (v, r) →
    skipValue? fuel (cs.map some) = some (r.map some)
  items : ∀ {depth done cs v r}, items? fuel depth done cs = some (v, r) →
    skipItems? fuel (cs.map some) = some (r.map some)
  members : ∀ {depth done cs v r}, members? fuel depth done cs = some (v, r) →
    skipMembers? fuel (cs.map some) = some (r.map some)

theorem passes_zero : Passes 0 where
  value h := by simp [value?] at h
  items h := by simp [items?] at h
  members h := by simp [members?] at h

theorem skipValue?_succ {fuel depth : Nat} {v : Json} (ih : Passes fuel)
    (h : value? (fuel + 1) depth cs = some (v, r)) :
    skipValue? (fuel + 1) (cs.map some) = some (r.map some) := by
  have hread := readAs_of_value? h
  rw [skipValue?, skipBlanks_map]
  generalize skipSpace cs = text at hread
  cases hread with
  | null hword | true hword | false hword => exact skipWord?_map hword
  | text htext => exact skipText?_map htext
  | emptyArray hclose | emptyObject hclose => simp [hclose]
  | array hopen hitems =>
    simp only [List.map_cons, skipBlanks_map]
    split
    · next hclose =>
      obtain ⟨q, hclose⟩ := exists_of_map_some hclose
      exact absurd hclose (hopen q)
    · exact ih.items hitems
  | object hopen hmembers =>
    simp only [List.map_cons, skipBlanks_map]
    split
    · next hclose =>
      obtain ⟨q, hclose⟩ := exists_of_map_some hclose
      exact absurd hclose (hopen q)
    · exact ih.members hmembers
  | negative hnumber => exact skipNumber?_map hnumber
  | number hdigit hnumber =>
    rw [List.map_cons]
    -- a digit is none of the characters that a value of another kind starts with
    split
    case h_8 => exact skipNumber?_map hnumber
    all_goals
      next heq =>
      obtain rfl := Option.some.inj (List.cons.inj heq).1
      cases hdigit

theorem skipItems?_succ {fuel depth : Nat} {done : List Json} {v : Json} (ih : Passes fuel)
    (h : items? (fuel + 1) depth done cs = some (v, r)) :
    skipItems? (fuel + 1) (cs.map some) = some (r.map some) := by
  unfold items? at h
  split at h
  · cases h
  · next hvalue =>
    simp only [skipItems?, ih.value hvalue, skipBlanks_map]
    split at h
    · next hcomma =>
      rw [hcomma]
      exact ih.items h
    · next hclose =>
      obtain ⟨-, rfl⟩ := Prod.mk.inj (Option.some.inj h)
      rw [hclose]
      rfl
    · cases h

theorem skipMembers?_succ {fuel depth : Nat} {done : List (String × Json)} {v : Json}
    (ih : Passes fuel) (h : members? (fuel + 1) depth done cs = some (v, r)) :
    skipMembers? (fuel + 1) (cs.map some) = some (r.map some) := by
  cases memberRead_of_members? h with
  | more hquote hname hcolon hvalue hcomma hmembers =>
    simp only [skipMembers?, skipBlanks_map, hquote, List.map_cons, skipText?_map hname, hcolon,
      ih.value hvalue, hcomma]
    exact ih.members hmembers
  | last hquote hname hcolon hvalue hclose =>
    simp only [skipMembers?, skipBlanks_map, hquote, List.map_cons, skipText?_map hname, hcolon,
      ih.value hvalue, hclose]

/-- Where a value is read, it is passed over. -/
theorem passes (fuel : Nat) : Passes fuel := by
  induction fuel with
  | zero => exact passes_zero
  | succ fuel ih => exact ⟨skipValue?_succ ih, skipItems?_succ ih, skipMembers?_succ ih⟩

end Bindery.Json
