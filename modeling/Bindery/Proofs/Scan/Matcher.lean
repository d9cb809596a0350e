import Mathlib.Computability.Language
import Bindery.Scan.Matcher

/-!
# The languages of matchers

A matcher that looks neither back nor ahead takes the texts of a language, wherever it is tried: it
lists all places behind such a text and no others. Sequence, choice and repetition of matchers are
product, sum and iteration of languages.

* `Cursor.past` : the place behind some text.
* `Reads` : a matcher takes the texts of a language.
* `reads_oneOf`, `reads_word`, `reads_run` : the languages of the smallest matchers.
* `Reads.andThen`, `Reads.orElse`, `Reads.optional`, `Reads.repeat1` : those of the others, by those
  of their parts.
* `Captured` : a match of which the middle is captured.
* `Prefers` : the match that is reported.
* `mem_wordEdge` : what looking back and ahead finds.
* `occurs_iff` : what it means that there is a match anywhere.
-/

namespace Bindery.Scan

open Computability

/-! ## Places -/

/-- The place behind the text that is taken; `rest` is what follows. -/
def Cursor.past (c : Cursor) (taken rest : List Char) : Cursor :=
  { c with before := taken.getLast?.or c.before, rest := rest, index := c.index + taken.length }

namespace Cursor

@[simp] theorem rest_past (c : Cursor) (taken rest : List Char) : (c.past taken rest).rest = rest :=
  rfl

@[simp] theorem past_nil (c : Cursor) : c.past [] c.rest = c := rfl

theorem past_singleton (c : Cursor) (ch : Char) (rest : List Char) :
    c.past [ch] rest = c.after ch rest := rfl

@[simp] theorem past_past (c : Cursor) (taken taken' rest rest' : List Char) :
    (c.past taken rest).past taken' rest' = c.past (taken ++ taken') rest' := by
  simp [past, Option.or_assoc, Nat.add_assoc]

/-- The place behind three texts, the middle one of which is captured. -/
def capturing (c : Cursor) (front captured back rest : List Char) : Cursor :=
  { c.past (front ++ (captured ++ back)) rest with
    captured := some (c.index + front.length, captured) }

@[simp] theorem rest_capturing (c : Cursor) (front captured back rest : List Char) :
    (c.capturing front captured back rest).rest = rest := rfl

@[simp] theorem capturing_past (c : Cursor) (taken rest front captured back rest' : List Char) :
    (c.past taken rest).capturing front captured back rest' =
      c.capturing (taken ++ front) captured back rest' := by
  simp [capturing, past, Option.or_assoc, Nat.add_assoc]

@[simp] theorem past_capturing (c : Cursor) (front captured back rest taken rest' : List Char) :
    (c.capturing front captured back rest).past taken rest' =
      c.capturing front captured (back ++ taken) rest' := by
  simp [capturing, past, Option.or_assoc, Nat.add_assoc]

end Cursor

/-! ## Matchers as languages -/

/-- The matcher takes just the texts of the language, wherever it is tried. -/
def Reads (m : Matcher) (l : Language Char) : Prop :=
  ∀ c e, e ∈ m c ↔ ∃ taken rest, c.rest = taken ++ rest ∧ taken ∈ l ∧ e = c.past taken rest

/-- The texts of one character of a class. -/
def ofClass (p : Char → Bool) : Language Char := {t | ∃ ch, p ch = true ∧ t = [ch]}

/-- The texts whose characters are all in a class. -/
def runsOf (p : Char → Bool) : Language Char := {t | ∀ ch ∈ t, p ch = true}

/-- The texts that are one of the words. -/
def wordsOf (words : List String) : Language Char := {t | ∃ w ∈ words, t = w.toList}

/-- Blanks, possibly none. -/
def Spaces : Language Char := runsOf Text.isBlank

theorem mem_runsOf {p : Char → Bool} {t : List Char} : t ∈ runsOf p ↔ ∀ ch ∈ t, p ch = true :=
  Iff.rfl

theorem mem_wordsOf {words : List String} {t : List Char} :
    t ∈ wordsOf words ↔ ∃ w ∈ words, t = w.toList := Iff.rfl

theorem mem_singleton {t u : List Char} : t ∈ ({u} : Language Char) ↔ t = u := Iff.rfl

variable {m n : Matcher} {l k : Language Char} {p : Char → Bool} {c e : Cursor}

theorem reads_oneOf (p : Char → Bool) : Reads (oneOf p) (ofClass p) := by
  intro c e
  unfold oneOf
  constructor
  · intro h
    split at h
    · next ch r hrest =>
      split at h
      · next hp =>
        refine ⟨[ch], r, hrest, ⟨ch, hp, rfl⟩, ?_⟩
        rw [Cursor.past_singleton]
        exact List.mem_singleton.1 h
      · cases h
    · cases h
  · rintro ⟨_, rest, hrest, ⟨ch, hp, rfl⟩, rfl⟩
    simp [hrest, hp, Cursor.past_singleton]

theorem reads_word (w : List Char) : Reads (word w) {w} := by
  induction w with
  | nil =>
    intro c e
    constructor
    · intro h
      exact ⟨[], c.rest, rfl, rfl, List.mem_singleton.1 h⟩
    · rintro ⟨_, rest, hrest, rfl, rfl⟩
      obtain rfl : c.rest = rest := hrest
      exact List.mem_singleton.2 (Cursor.past_nil c)
  | cons x ws ih =>
    intro c e
    unfold word
    constructor
    · intro h
      split at h
      · next ch r hrest =>
        split at h
        · next hch =>
          obtain ⟨_, rest, hws, rfl, rfl⟩ := (ih _ _).1 h
          obtain rfl : r = _ ++ rest := hws
          refine ⟨x :: _, rest, by rw [hrest, hch]; rfl, rfl, ?_⟩
          rw [hch, ← Cursor.past_singleton, Cursor.past_past]
          rfl
        · cases h
      · cases h
    · rintro ⟨_, rest, hrest, rfl, rfl⟩
      rw [List.cons_append] at hrest
      simp only [hrest, if_true]
      refine (ih _ _).2 ⟨ws, rest, rfl, rfl, ?_⟩
      rw [← Cursor.past_singleton, Cursor.past_past]
      rfl

/-- The places behind the starts of a text whose characters are in the class. -/
theorem mem_runEnds {done : List Cursor} {text : List Char} (htext : c.rest = text) :
    e ∈ runEnds p c done text ↔ e ∈ done ∨
      ∃ taken rest, text = taken ++ rest ∧ taken ∈ runsOf p ∧ e = c.past taken rest := by
  induction text generalizing c done with
  | nil =>
    have hpast : c.past [] [] = c := htext ▸ Cursor.past_nil c
    simp [runEnds, or_comm, mem_runsOf, hpast]
  | cons ch r ih =>
    have hnone : c.past [] (ch :: r) = c := htext ▸ Cursor.past_nil c
    unfold runEnds
    split
    · next hp =>
      rw [ih (c := c.after ch r) rfl, List.mem_cons, ← Cursor.past_singleton]
      constructor
      · rintro ((rfl | hdone) | ⟨taken, rest, rfl, htaken, rfl⟩)
        · exact .inr ⟨[], ch :: r, rfl, by simp [mem_runsOf], hnone.symm⟩
        · exact .inl hdone
        · refine .inr ⟨ch :: taken, rest, rfl, ?_, Cursor.past_past ..⟩
          exact List.forall_mem_cons.2 ⟨hp, htaken⟩
      · rintro (hdone | ⟨taken, rest, heq, htaken, rfl⟩)
        · exact .inl (.inr hdone)
        · cases taken with
          | nil =>
            obtain rfl : ch :: r = rest := heq
            exact .inl (.inl hnone)
          | cons x taken =>
            obtain ⟨rfl, rfl⟩ := List.cons.inj heq
            have hr := (List.forall_mem_cons.1 htaken).2
            exact .inr ⟨taken, rest, rfl, hr, (Cursor.past_past c [ch] taken _ rest).symm⟩
    · next hp =>
      rw [List.mem_cons, or_comm]
      refine or_congr_right ⟨?_, ?_⟩
      · rintro rfl
        exact ⟨[], ch :: r, rfl, by simp [mem_runsOf], hnone.symm⟩
      · rintro ⟨taken, rest, heq, htaken, rfl⟩
        cases taken with
        | nil =>
          obtain rfl : ch :: r = rest := heq
          exact hnone
        | cons x taken =>
          obtain ⟨rfl, -⟩ := List.cons.inj heq
          exact absurd (htaken ch List.mem_cons_self) hp

theorem reads_run (p : Char → Bool) : Reads (run p) (runsOf p) := by
  intro c e
  rw [run, mem_runEnds rfl]
  simp

theorem Reads.andThen (hm : Reads m l) (hn : Reads n k) : Reads (andThen m n) (l * k) := by
  intro c e
  simp only [Scan.andThen, List.mem_flatMap, Language.mem_mul]
  constructor
  · rintro ⟨d, hd, he⟩
    obtain ⟨first, between, hrest, hfirst, rfl⟩ := (hm c d).1 hd
    obtain ⟨second, rest, hbetween, hsecond, rfl⟩ := (hn _ e).1 he
    rw [Cursor.rest_past] at hbetween
    refine ⟨first ++ second, rest, ?_, ⟨first, hfirst, second, hsecond, rfl⟩, Cursor.past_past ..⟩
    rw [hrest, hbetween, List.append_assoc]
  · rintro ⟨_, rest, hrest, ⟨first, hfirst, second, hsecond, rfl⟩, rfl⟩
    rw [List.append_assoc] at hrest
    refine ⟨c.past first (second ++ rest), (hm c _).2 ⟨first, _, hrest, hfirst, rfl⟩, ?_⟩
    exact (hn _ _).2 ⟨second, rest, rfl, hsecond, (Cursor.past_past ..).symm⟩

theorem andThen_assoc (a b c : Matcher) : andThen (andThen a b) c = andThen a (andThen b c) := by
  funext start
  exact List.flatMap_assoc

/-- A sequence can be cut before its last matcher. -/
theorem inOrder_concat {ms : List Matcher} (h : ms ≠ []) (last : Matcher) :
    inOrder (ms ++ [last]) = Scan.andThen (inOrder ms) last := by
  induction ms with
  | nil => exact absurd rfl h
  | cons m r ih =>
    cases r with
    | nil => rfl
    | cons m' r =>
      show Scan.andThen m (inOrder (m' :: r ++ [last])) = _
      rw [ih (List.cons_ne_nil m' r), ← andThen_assoc]
      rfl

theorem Reads.exists_mem_iff (hm : Reads m l) :
    (∃ e, e ∈ m c) ↔ ∃ taken rest, c.rest = taken ++ rest ∧ taken ∈ l := by
  constructor
  · rintro ⟨e, he⟩
    obtain ⟨taken, rest, hrest, htaken, -⟩ := (hm c e).1 he
    exact ⟨taken, rest, hrest, htaken⟩
  · rintro ⟨taken, rest, hrest, htaken⟩
    exact ⟨_, (hm c _).2 ⟨taken, rest, hrest, htaken, rfl⟩⟩

theorem Reads.orElse (hm : Reads m l) (hn : Reads n k) : Reads (orElse m n) (l + k) := by
  intro c e
  simp only [Scan.orElse, List.mem_append, hm c e, hn c e, Language.mem_add, or_and_right,
    and_or_left, exists_or]

theorem reads_nothing : Reads (fun c => [c]) 1 := reads_word []

theorem Reads.optional (hm : Reads m l) : Reads (optional m) (l + 1) := hm.orElse reads_nothing

theorem reads_run1 (p : Char → Bool) : Reads (run1 p) (ofClass p * runsOf p) :=
  (reads_oneOf p).andThen (reads_run p)

/-- At least one blank. -/
def Separator : Language Char := ofClass Text.isBlank * Spaces

theorem reads_blanks : Reads blanks Spaces := reads_run _

theorem reads_blanks1 : Reads blanks1 Separator := reads_run1 _

theorem reads_lazyRun1 (p : Char → Bool) : Reads (lazyRun1 p) (ofClass p * runsOf p) := by
  intro c e
  rw [lazyRun1, List.mem_reverse]
  exact reads_run1 p c e

theorem reads_anyWord (words : List String) : Reads (anyWord words) (wordsOf words) := by
  intro c e
  simp only [anyWord, List.mem_flatMap, reads_word _ c e, mem_wordsOf]
  constructor
  · rintro ⟨w, hw, taken, rest, hrest, htaken, rfl⟩
    exact ⟨taken, rest, hrest, ⟨w, hw, htaken⟩, rfl⟩
  · rintro ⟨taken, rest, hrest, ⟨w, hw, htaken⟩, rfl⟩
    exact ⟨w, hw, taken, rest, hrest, htaken, rfl⟩

/-- At most so many texts of a language in a row. -/
def upTo (l : Language Char) : Nat → Language Char
  | 0 => 1
  | n + 1 => l * upTo l n + 1

theorem Reads.repeatUpTo (hm : Reads m l) (count : Nat) :
    Reads (repeatUpTo m count) (upTo l count) := by
  induction count with
  | zero => exact reads_nothing
  | succ count ih => exact (hm.andThen ih).orElse reads_nothing

theorem mem_kstar_of_mem_upTo {t : List Char} {count : Nat} (h : t ∈ upTo l count) : t ∈ l∗ := by
  induction count generalizing t with
  | zero => exact (Language.mem_one t).1 h ▸ Language.nil_mem_kstar l
  | succ count ih =>
    rcases h with ⟨first, hfirst, others, hothers, rfl⟩ | h
    · obtain ⟨ts, rfl, hts⟩ := Language.mem_kstar.1 (ih hothers)
      refine Language.mem_kstar.2 ⟨first :: ts, rfl, ?_⟩
      exact List.forall_mem_cons.2 ⟨hfirst, hts⟩
    · exact (Language.mem_one t).1 h ▸ Language.nil_mem_kstar l

/-- Texts that are not empty are no more than their characters. -/
theorem mem_upTo_of_mem_kstar {t : List Char} {count : Nat} (hnil : [] ∉ l) (h : t ∈ l∗)
    (hlength : t.length ≤ count) : t ∈ upTo l count := by
  obtain ⟨ts, rfl, hts⟩ := Language.mem_kstar.1 h
  clear h
  induction ts generalizing count with
  | nil =>
    cases count with
    | zero => rfl
    | succ count => exact .inr rfl
  | cons first ts ih =>
    obtain ⟨hfirst, hts⟩ := List.forall_mem_cons.1 hts
    have hpos : 0 < first.length := List.length_pos_iff.2 fun hempty => hnil (hempty ▸ hfirst)
    rw [List.flatten_cons, List.length_append] at hlength
    cases count with
    | zero => omega
    | succ count =>
      have hothers : ts.flatten ∈ upTo l count := ih hts (by omega)
      exact .inl ⟨first, hfirst, ts.flatten, hothers, rfl⟩

/-- Matches that take something can be repeated as often as the text allows. -/
theorem Reads.repeat1 (hm : Reads m l) (hnil : [] ∉ l) : Reads (repeat1 m) (l * l∗) := by
  intro c e
  refine (hm.andThen (hm.repeatUpTo c.rest.length) c e).trans ?_
  refine exists_congr fun taken => exists_congr fun rest => and_congr_right fun hrest => ?_
  refine and_congr_left fun _ => ?_
  constructor
  · rintro ⟨first, hfirst, others, hothers, rfl⟩
    exact ⟨first, hfirst, others, mem_kstar_of_mem_upTo hothers, rfl⟩
  · rintro ⟨first, hfirst, others, hothers, rfl⟩
    refine ⟨first, hfirst, others, mem_upTo_of_mem_kstar hnil hothers ?_, rfl⟩
    rw [hrest, List.length_append, List.length_append]
    omega

/-! ## Characters -/

/-- What holds of the characters of a text is decided by trying these, before it comes to trying
every character that there is. -/
instance (priority := high) decidableForallMem (p : Char → Prop) [DecidablePred p]
    (t : List Char) : Decidable (∀ ch ∈ t, p ch) :=
  List.decidableBAll p t

theorem mem_run1 {p : Char → Bool} {t : List Char} :
    t ∈ ofClass p * runsOf p ↔ t ≠ [] ∧ ∀ ch ∈ t, p ch = true := by
  constructor
  · rintro ⟨_, ⟨ch, hch, rfl⟩, others, hothers, rfl⟩
    exact ⟨by simp, List.forall_mem_cons.2 ⟨hch, hothers⟩⟩
  · rintro ⟨hne, h⟩
    cases t with
    | nil => exact absurd rfl hne
    | cons ch others =>
      obtain ⟨hch, hothers⟩ := List.forall_mem_cons.1 h
      exact ⟨[ch], ⟨ch, hch, rfl⟩, others, hothers, rfl⟩

theorem nil_mem_spaces : [] ∈ Spaces := fun _ hch => (List.not_mem_nil hch).elim

theorem space_mem_spaces : [' '] ∈ Spaces := by
  intro ch hch
  obtain rfl := List.mem_singleton.1 hch
  decide

theorem space_mem : [' '] ∈ Separator :=
  mem_run1.2 ⟨List.cons_ne_nil _ _, space_mem_spaces⟩

/-- No text of the language has a character of the class. -/
def Avoids (p : Char → Bool) (l : Language Char) : Prop := ∀ t ∈ l, ∀ ch ∈ t, p ch = false

namespace Avoids

variable {p q : Char → Bool} {l k : Language Char}

theorem one : Avoids p 1 := by
  rintro t rfl ch hch
  cases hch

theorem word {t : List Char} (h : ∀ ch ∈ t, p ch = false) : Avoids p {t} := by
  rintro _ rfl
  exact h

theorem ofClass (h : ∀ ch, q ch = true → p ch = false) : Avoids p (ofClass q) := by
  rintro _ ⟨ch, hch, rfl⟩ ch' hch'
  exact List.mem_singleton.1 hch' ▸ h ch hch

theorem runsOf (h : ∀ ch, q ch = true → p ch = false) : Avoids p (runsOf q) :=
  fun _ ht ch hch => h ch (ht ch hch)

theorem mul (hl : Avoids p l) (hk : Avoids p k) : Avoids p (l * k) := by
  rintro _ ⟨first, hfirst, second, hsecond, rfl⟩ ch hch
  rcases List.mem_append.1 hch with hch | hch
  · exact hl first hfirst ch hch
  · exact hk second hsecond ch hch

theorem add (hl : Avoids p l) (hk : Avoids p k) : Avoids p (l + k) := by
  rintro t (ht | ht)
  · exact hl t ht
  · exact hk t ht

theorem run1 (h : ∀ ch, q ch = true → p ch = false) :
    Avoids p (Scan.ofClass q * Scan.runsOf q) := (ofClass h).mul (runsOf h)

end Avoids

/-- No blank is one of the characters. -/
theorem avoids_separator {p : Char → Bool} (h : ∀ ch, Text.isBlank ch = true → p ch = false) :
    Avoids p Separator := (Avoids.ofClass h).mul (Avoids.runsOf h)

/-- A text has one first character of a class. -/
theorem append_cons_inj {p : Char → Bool} {a a' b b' : List Char} {x x' : Char}
    (ha : ∀ ch ∈ a, p ch = false) (ha' : ∀ ch ∈ a', p ch = false) (hx : p x = true)
    (hx' : p x' = true) (h : a ++ x :: b = a' ++ x' :: b') : a = a' ∧ x = x' ∧ b = b' := by
  -- where one text ends first, its character of the class is in the other text
  induction a generalizing a' with
  | nil =>
    cases a' with
    | nil => exact ⟨rfl, List.cons.inj h⟩
    | cons y r =>
      obtain ⟨rfl, -⟩ := List.cons.inj h
      simp [ha' x List.mem_cons_self] at hx
  | cons y r ih =>
    cases a' with
    | nil =>
      obtain ⟨rfl, -⟩ := List.cons.inj h
      simp [ha y List.mem_cons_self] at hx'
    | cons y' r' =>
      obtain ⟨rfl, htail⟩ := List.cons.inj h
      obtain ⟨rfl, hrest⟩ := ih (fun ch hch => ha ch (List.mem_cons_of_mem _ hch))
        (fun ch hch => ha' ch (List.mem_cons_of_mem _ hch)) htail
      exact ⟨rfl, hrest⟩

/-! ## Captured texts -/

theorem capturing_of_past {taken rest : List Char} (hrest : c.rest = taken ++ rest) :
    { c.past taken rest with
      captured := some (c.index, c.rest.take ((c.past taken rest).index - c.index)) } =
      c.capturing [] taken [] rest := by
  simp [Cursor.capturing, Cursor.past, hrest]

theorem Reads.mem_capture (hm : Reads m l) : e ∈ capture m c ↔ ∃ taken rest,
    c.rest = taken ++ rest ∧ taken ∈ l ∧ e = c.capturing [] taken [] rest := by
  rw [capture, List.mem_map]
  constructor
  · rintro ⟨d, hd, rfl⟩
    obtain ⟨taken, rest, hrest, htaken, rfl⟩ := (hm c d).1 hd
    exact ⟨taken, rest, hrest, htaken, capturing_of_past hrest⟩
  · rintro ⟨taken, rest, hrest, htaken, rfl⟩
    exact ⟨_, (hm c _).2 ⟨taken, rest, hrest, htaken, rfl⟩, capturing_of_past hrest⟩

/-- A match of which the middle is captured. -/
inductive Captured (heads middles tails : Language Char) (c : Cursor) : Cursor → Prop
  | of {head middle tail rest : List Char} (hrest : c.rest = head ++ (middle ++ (tail ++ rest)))
      (hhead : head ∈ heads) (hmiddle : middle ∈ middles) (htail : tail ∈ tails) :
    Captured heads middles tails c (c.capturing head middle tail rest)

theorem mem_captured_iff {first middle last : Matcher} {heads middles tails : Language Char}
    (hfirst : Reads first heads) (hmiddle : Reads middle middles) (hlast : Reads last tails) :
    e ∈ andThen first (andThen (capture middle) last) c ↔ Captured heads middles tails c e := by
  simp only [Scan.andThen, List.mem_flatMap, hfirst c, hmiddle.mem_capture, hlast _]
  constructor
  · rintro ⟨_, ⟨head, rest, hrest, hhead, rfl⟩, _, ⟨text, rest', hrest', htext, rfl⟩,
      tail, rest'', hrest'', htail, rfl⟩
    rw [Cursor.rest_past] at hrest'
    rw [Cursor.rest_capturing] at hrest''
    have hwhole : c.rest = head ++ (text ++ (tail ++ rest'')) := by
      rw [hrest, hrest', hrest'']
    simpa using Captured.of hwhole hhead htext htail
  · rintro ⟨hrest, hhead, htext, htail⟩
    exact ⟨_, ⟨_, _, hrest, hhead, rfl⟩, _, ⟨_, _, rfl, htext, rfl⟩, _, _, rfl, htail, by simp⟩

/-! ## Preferred matches -/

/-- A match of the matcher ends at the place, and it is the one that is reported. -/
def Prefers (m : Matcher) (c e : Cursor) : Prop := (m c).head? = some e

theorem prefers_iff_cons : Prefers m c e ↔ ∃ others, m c = e :: others := by
  rw [Prefers, List.head?_eq_some_iff]

theorem Prefers.andThen {d : Cursor} (hm : Prefers m c d) (hn : Prefers n d e) :
    Prefers (andThen m n) c e := by
  obtain ⟨others, hothers⟩ := prefers_iff_cons.1 hm
  rw [Prefers, Scan.andThen, hothers, List.flatMap_cons, List.head?_append, hn]
  rfl

/-- Where the match can go on from one place only, it goes on from there. -/
theorem prefers_andThen_of_unique {d : Cursor} (hm : d ∈ m c)
    (hunique : ∀ d' ∈ m c, n d' ≠ [] → d' = d) (hn : Prefers n d e) :
    Prefers (andThen m n) c e := by
  rw [Prefers, Scan.andThen]
  -- the induction is on the matches in their order; those before the one do not go on
  generalize m c = places at hm hunique
  induction places with
  | nil => cases hm
  | cons d' r ih =>
    rw [List.flatMap_cons]
    by_cases hd' : n d' = []
    · have hne : d ≠ d' := by
        rintro rfl
        rw [Prefers, hd'] at hn
        cases hn
      rw [hd', List.nil_append]
      exact ih ((List.mem_cons.1 hm).resolve_left hne)
        fun d'' hd'' => hunique d'' (List.mem_cons_of_mem _ hd'')
    · obtain rfl := hunique d' List.mem_cons_self hd'
      rw [List.head?_append, hn]
      rfl

theorem prefers_oneOf {ch : Char} {rest : List Char} (hrest : c.rest = ch :: rest)
    (hch : p ch = true) : Prefers (oneOf p) c (c.past [ch] rest) := by
  simp [Prefers, oneOf, hrest, hch, Cursor.past_singleton]

theorem prefers_word {w rest : List Char} (hrest : c.rest = w ++ rest) :
    Prefers (word w) c (c.past w rest) := by
  induction w generalizing c with
  | nil =>
    obtain rfl : c.rest = rest := hrest
    simp [Prefers, word]
  | cons x ws ih =>
    rw [List.cons_append] at hrest
    simp only [Prefers, word, hrest, if_true]
    rw [← Cursor.past_singleton]
    have hnext := ih (c := c.past [x] (ws ++ rest)) rfl
    rwa [Prefers, Cursor.past_past] at hnext

theorem prefers_word_of_eq {w rest : List Char} (hrest : c.rest = w ++ rest)
    (he : e = c.past w rest) : Prefers (word w) c e := he ▸ prefers_word hrest

theorem prefers_optional (h : Prefers m c e) : Prefers (optional m) c e := by
  obtain ⟨others, hothers⟩ := prefers_iff_cons.1 h
  simp [Prefers, optional, hothers]

theorem prefers_optional_none (h : m c = []) : Prefers (optional m) c c := by
  simp [Prefers, optional, h]

/-- The furthest place comes first. -/
theorem head?_runEnds {done : List Cursor} {t rest : List Char} (ht : t ∈ runsOf p)
    (hstop : ∀ ch ∈ rest.head?, p ch = false) (hrest : c.rest = t ++ rest) :
    (runEnds p c done (t ++ rest)).head? = some (c.past t rest) := by
  induction t generalizing c done with
  | nil =>
    obtain rfl : c.rest = rest := hrest
    rw [List.nil_append, Cursor.past_nil]
    cases htext : c.rest with
    | nil => rfl
    | cons ch r =>
      have hch : p ch = false := hstop ch (by simp [htext])
      simp [runEnds, hch]
  | cons ch r ih =>
    obtain ⟨hch, hr⟩ := List.forall_mem_cons.1 ht
    rw [List.cons_append, runEnds, if_pos hch, ih hr (c := c.after ch (r ++ rest)) rfl,
      ← Cursor.past_singleton, Cursor.past_past]
    rfl

theorem prefers_run {t rest : List Char} (hrest : c.rest = t ++ rest) (ht : t ∈ runsOf p)
    (hstop : ∀ ch ∈ rest.head?, p ch = false) : Prefers (run p) c (c.past t rest) := by
  rw [Prefers, run, hrest]
  exact head?_runEnds ht hstop hrest

theorem prefers_run1 {t rest : List Char} (hrest : c.rest = t ++ rest) (hne : t ≠ [])
    (ht : t ∈ runsOf p) (hstop : ∀ ch ∈ rest.head?, p ch = false) :
    Prefers (run1 p) c (c.past t rest) := by
  cases t with
  | nil => exact absurd rfl hne
  | cons ch r =>
    obtain ⟨hch, hr⟩ := List.forall_mem_cons.1 ht
    have hothers := prefers_run (c := c.past [ch] (r ++ rest)) rfl hr hstop
    rw [Cursor.past_past] at hothers
    exact (prefers_oneOf hrest hch).andThen hothers

theorem prefers_capture {t rest : List Char} (hrest : c.rest = t ++ rest)
    (h : Prefers m c (c.past t rest)) :
    Prefers (capture m) c (c.capturing [] t [] rest) := by
  obtain ⟨others, hothers⟩ := prefers_iff_cons.1 h
  rw [Prefers, capture, hothers, List.map_cons, List.head?_cons, capturing_of_past hrest]

/-! ## Looking back and ahead -/

/-- Between a word character and something else. -/
def Cursor.IsEdge (c : Cursor) : Prop :=
  c.before.any Unicode.isWord ≠ c.rest.head?.any Unicode.isWord

theorem mem_wordEdge {c e : Cursor} : e ∈ wordEdge c ↔ c.IsEdge ∧ e = c := by
  unfold wordEdge Cursor.IsEdge
  split
  · next h => simp [bne_iff_ne.1 h]
  · next h => simp [not_not.1 (bne_iff_ne.not.1 h)]

theorem mem_lineStart : e ∈ lineStart c ↔ (c.before = none ∨ c.before = some '\n') ∧ e = c := by
  simp only [lineStart, Bool.or_eq_true, decide_eq_true_eq]
  split
  · next h => simp [h]
  · next h => simp [h]

theorem mem_andThen_lineStart {m : Matcher} : e ∈ andThen lineStart m c ↔
    (c.before = none ∨ c.before = some '\n') ∧ e ∈ m c := by
  simp only [andThen, List.mem_flatMap, mem_lineStart]
  constructor
  · rintro ⟨d, ⟨hstart, rfl⟩, he⟩
    exact ⟨hstart, he⟩
  · rintro ⟨hstart, he⟩
    exact ⟨c, ⟨hstart, rfl⟩, he⟩

theorem mem_andThen_wordEdge {m : Matcher} : e ∈ andThen wordEdge m c ↔ c.IsEdge ∧ e ∈ m c := by
  simp only [andThen, List.mem_flatMap, mem_wordEdge]
  constructor
  · rintro ⟨d, ⟨hedge, rfl⟩, he⟩
    exact ⟨hedge, he⟩
  · rintro ⟨hedge, he⟩
    exact ⟨c, ⟨hedge, rfl⟩, he⟩

/-! ## Matches anywhere -/

theorem occurs_iff {before : Option Char} {text : List Char} : occurs m before text = true ↔
    ∃ first rest e, text = first ++ rest ∧ rest ≠ [] ∧
      e ∈ m { before := first.getLast?.or before, rest := rest, index := 0 } := by
  induction text generalizing before with
  | nil =>
    simp only [occurs, Bool.false_eq_true, List.nil_eq, List.append_eq_nil_iff, false_iff]
    rintro ⟨first, rest, e, ⟨-, rfl⟩, hne, -⟩
    exact hne rfl
  | cons ch r ih =>
    unfold occurs
    constructor
    · intro h
      split at h
      · obtain ⟨first, rest, e, rfl, hne, he⟩ := ih.1 h
        refine ⟨ch :: first, rest, e, rfl, hne, ?_⟩
        simpa [List.getLast?_cons] using he
      · next hfound =>
        obtain ⟨e, he⟩ := List.exists_mem_of_ne_nil _ (by simpa using hfound)
        exact ⟨[], ch :: r, e, rfl, by simp, he⟩
    · rintro ⟨first, rest, e, heq, hne, he⟩
      cases first with
      | nil =>
        obtain rfl : ch :: r = rest := heq
        have hfound : ¬(m { before := before, rest := ch :: r, index := 0 }).isEmpty = true := by
          rw [List.isEmpty_iff]
          exact List.ne_nil_of_mem he
        rw [if_neg hfound]
      | cons x first =>
        obtain ⟨rfl, rfl⟩ := List.cons.inj heq
        split
        · refine ih.2 ⟨first, rest, e, rfl, hne, ?_⟩
          simpa [List.getLast?_cons] using he
        · rfl

end Bindery.Scan
