import Mathlib.Tactic.SplitIfs
import Bindery.Session.ErrorPage

/-!
# Reading markup back

A page is read as tags and the texts between them. An escaped text holds no bracket, so wherever it
stands it is read as one text, and what it was before it was escaped can be told from it.

* `Html.unescape_escape` : what was escaped is told back.
* `Html.Inert`, `Html.inert_escape` : nothing in an escaped text can be taken for markup.
* `Html.Reader`, `Html.tokens` : reading a page.
* `Html.Reader.run_element`, `Html.elements_elementTokens` : a written element is read back.
-/

namespace Bindery

namespace Html

/-! ## Escaped texts -/

/-- The characters that are told by references. -/
def unescapeChars : List Char → List Char
  | [] => []
  | '&' :: 'a' :: 'm' :: 'p' :: ';' :: r => '&' :: unescapeChars r
  | '&' :: 'l' :: 't' :: ';' :: r => '<' :: unescapeChars r
  | '&' :: 'g' :: 't' :: ';' :: r => '>' :: unescapeChars r
  | '&' :: 'q' :: 'u' :: 'o' :: 't' :: ';' :: r => '"' :: unescapeChars r
  | '&' :: '#' :: 'x' :: '2' :: '7' :: ';' :: r => '\'' :: unescapeChars r
  | c :: r => c :: unescapeChars r

/-- The text that a text of a page tells. -/
def unescape (content : List Char) : String := String.ofList (unescapeChars content)

theorem unescapeChars_escapeChar_append (c : Char) (r : List Char) :
    unescapeChars (escapeChar c ++ r) = c :: unescapeChars r := by
  unfold escapeChar
  split_ifs with hamp hlt hgt hquot hapos
  · rw [hamp]; rfl
  · rw [hlt]; rfl
  · rw [hgt]; rfl
  · rw [hquot]; rfl
  · rw [hapos]; rfl
  · -- no reference starts with another character
    rw [List.singleton_append]
    simp [unescapeChars, hamp]

/-- What was escaped is told back. -/
theorem unescape_escape (text : String) : unescape (escape text).toList = text := by
  have hchars : ∀ cs : List Char, unescapeChars (cs.flatMap escapeChar) = cs := by
    intro cs
    induction cs with
    | nil => rfl
    | cons c r ih => rw [List.flatMap_cons, unescapeChars_escapeChar_append, ih]
  rw [unescape, escape, String.toList_ofList, hchars, String.ofList_toList]

/-- The characters that could be taken for markup. -/
def specials : List Char := ['&', '<', '>', '"', '\'']

/-- The names of the references that stand for them. -/
def references : List String := ["amp", "lt", "gt", "quot", "#x27"]

/-- A text of a page in which nothing can be taken for markup: what is special stands as a
reference. -/
inductive Inert : List Char → Prop where
  | nil : Inert []
  | plain {c : Char} {r : List Char} (hc : c ∉ specials) (h : Inert r) : Inert (c :: r)
  | reference {name : String} {r : List Char} (hname : name ∈ references) (h : Inert r) :
      Inert ('&' :: name.toList ++ ';' :: r)

namespace Inert

variable {cs more : List Char}

/-- A text without special characters. -/
theorem of_plain (h : ∀ c ∈ cs, c ∉ specials) : Inert cs := by
  induction cs with
  | nil => exact .nil
  | cons c r ih =>
    obtain ⟨hc, hr⟩ := List.forall_mem_cons.1 h
    exact .plain hc (ih hr)

theorem append (h : Inert cs) (hmore : Inert more) : Inert (cs ++ more) := by
  induction h with
  | nil => exact hmore
  | plain hc _ ih => exact .plain hc ih
  | reference hname _ ih =>
    rw [List.append_assoc]
    exact .reference hname ih

/-- No tag starts inside of it. -/
theorem bracket_notMem (h : Inert cs) : '<' ∉ cs := by
  induction h with
  | nil => exact List.not_mem_nil
  | plain hc _ ih =>
    rintro (_ | ⟨_, hmem⟩)
    · exact hc (by decide)
    · exact ih hmem
  | reference hname _ ih =>
    have hnames : ∀ name ∈ references, '<' ∉ name.toList := by decide
    simp [hnames _ hname, ih]

end Inert

theorem inert_escapeChar (c : Char) : Inert (escapeChar c) := by
  unfold escapeChar
  split_ifs with hamp hlt hgt hquot hapos
  · exact @Inert.reference "amp" [] (by decide) .nil
  · exact @Inert.reference "lt" [] (by decide) .nil
  · exact @Inert.reference "gt" [] (by decide) .nil
  · exact @Inert.reference "quot" [] (by decide) .nil
  · exact @Inert.reference "#x27" [] (by decide) .nil
  · exact .plain (by simp [specials, hamp, hlt, hgt, hquot, hapos]) .nil

/-- Nothing in an escaped text can be taken for markup. -/
theorem inert_escape (text : String) : Inert (escape text).toList := by
  rw [escape, String.toList_ofList]
  induction text.toList with
  | nil => exact .nil
  | cons c r ih =>
    rw [List.flatMap_cons]
    exact (inert_escapeChar c).append ih

/-! ## Reading a page -/

/-- What a page is read as: a tag, by what stands between its brackets, or a text between tags. -/
inductive Token where
  | tag (inner : String)
  | text (content : List Char)
  deriving DecidableEq, Repr

/-- The text between two tags, if there is any. -/
def textToken (content : List Char) : List Token :=
  if content = [] then [] else [.text content]

/-- The tags of a page, in order. -/
def tags (ts : List Token) : List String :=
  ts.filterMap fun | .tag inner => some inner | .text _ => none

/-- The texts of a page, in order. -/
def texts (ts : List Token) : List (List Char) :=
  ts.filterMap fun | .tag _ => none | .text content => some content

/-- A reader of a page. -/
structure Reader where
  /-- What is read. -/
  done : List Token
  /-- Whether a tag is being read. -/
  inTag : Bool
  /-- What is read of the next token, the latest first. -/
  seen : List Char

namespace Reader

/-- The bracket that ends a tag or a text. -/
def bracket (inTag : Bool) : Char := if inTag then '>' else '<'

/-- The next token, if it ends here. -/
def next (r : Reader) : List Token :=
  if r.inTag then [.tag (String.ofList r.seen.reverse)] else textToken r.seen.reverse

def step (r : Reader) (c : Char) : Reader :=
  if c = bracket r.inTag then ⟨r.done ++ r.next, !r.inTag, []⟩ else ⟨r.done, r.inTag, c :: r.seen⟩

def run (r : Reader) (text : String) : Reader := text.toList.foldl step r

/-- What is read when the page ends. A tag that is not ended is none. -/
def tokens (r : Reader) : List Token := if r.inTag then r.done else r.done ++ r.next

variable {done : List Token} {inTag : Bool} {seen : List Char} {text tag name : String}

theorem eq_of_inTag {r : Reader} (h : r.inTag = inTag) : r = ⟨r.done, inTag, r.seen⟩ := by
  cases r
  cases h
  rfl

theorem run_append (r : Reader) (text more : String) :
    r.run (text ++ more) = (r.run text).run more := by
  simp only [run, String.toList_append, List.foldl_append]

/-- Up to the next bracket only characters are taken. -/
theorem foldl_step {cs : List Char} (h : bracket inTag ∉ cs) :
    cs.foldl step ⟨done, inTag, seen⟩ = ⟨done, inTag, cs.reverse ++ seen⟩ := by
  induction cs generalizing seen with
  | nil => rfl
  | cons c r ih =>
    rw [List.mem_cons, not_or] at h
    obtain ⟨hc, hr⟩ := h
    have hstep : step ⟨done, inTag, seen⟩ c = ⟨done, inTag, c :: seen⟩ := if_neg (Ne.symm hc)
    rw [List.foldl_cons, hstep, ih hr, List.reverse_cons, List.append_assoc, List.singleton_append]

theorem run_text (h : '<' ∉ text.toList) (done : List Token) (seen : List Char) :
    (Reader.mk done false seen).run text = ⟨done, false, text.toList.reverse ++ seen⟩ :=
  foldl_step h

/-- A tag ends the text in front of it. -/
theorem run_tag (h : '>' ∉ tag.toList) (done : List Token) (seen : List Char) :
    (Reader.mk done false seen).run ("<" ++ tag ++ ">") =
      ⟨done ++ textToken seen.reverse ++ [.tag tag], false, []⟩ := by
  have hopen : (Reader.mk done false seen).run "<" = ⟨done ++ textToken seen.reverse, true, []⟩ :=
    rfl
  have hinner : (Reader.mk (done ++ textToken seen.reverse) true []).run tag =
      ⟨done ++ textToken seen.reverse, true, tag.toList.reverse ++ []⟩ := foldl_step h
  rw [run_append, run_append, hopen, hinner, List.append_nil]
  have hclose : (Reader.mk (done ++ textToken seen.reverse) true tag.toList.reverse).run ">" =
      ⟨done ++ textToken seen.reverse ++ [.tag (String.ofList tag.toList.reverse.reverse)],
        false, []⟩ := rfl
  rw [hclose, List.reverse_reverse, String.ofList_toList]

/-- A reader that has read some tokens before. -/
def after (ts : List Token) (r : Reader) : Reader := ⟨ts ++ r.done, r.inTag, r.seen⟩

theorem step_after (ts : List Token) (r : Reader) (c : Char) :
    step (after ts r) c = after ts (step r c) := by
  have hnext : (after ts r).next = r.next := rfl
  have hinTag : (after ts r).inTag = r.inTag := rfl
  rw [step, step, hnext, hinTag]
  split
  · simp only [after, List.append_assoc]
  · rfl

/-- What is read before has no part in how the rest is read. -/
theorem run_append_done (ts done : List Token) (inTag : Bool) (seen : List Char) (text : String) :
    (Reader.mk (ts ++ done) inTag seen).run text =
      ⟨ts ++ ((Reader.mk done inTag seen).run text).done,
        ((Reader.mk done inTag seen).run text).inTag,
        ((Reader.mk done inTag seen).run text).seen⟩ := by
  change (after ts ⟨done, inTag, seen⟩).run text = after ts ((Reader.mk done inTag seen).run text)
  exact List.foldl_hom (after ts) (step_after ts)

/-- As `run_append_done`, for the end of the page. -/
theorem tokens_append_done (ts : List Token) (r : Reader) :
    (Reader.mk (ts ++ r.done) r.inTag r.seen).tokens = ts ++ r.tokens := by
  unfold tokens
  split
  · rfl
  · exact List.append_assoc _ _ _

end Reader

/-- A page read from its start. -/
def tokens (page : String) : List Token := ((Reader.mk [] false []).run page).tokens

/-! ## Elements -/

/-- An element that holds one other element, and so on for all the names; the last one holds the
content. -/
def element : List String → String → String
  | [], content => content
  | name :: names, content =>
    "<" ++ name ++ ">" ++ (element names content ++ ("<" ++ ("/" ++ name) ++ ">"))

/-- What such an element is read as. -/
def elementTokens : List String → List Char → List Token
  | [], content => textToken content
  | name :: names, content => .tag name :: (elementTokens names content ++ [.tag ("/" ++ name)])

@[simp] theorem tags_tag (inner : String) (ts : List Token) :
    tags (.tag inner :: ts) = inner :: tags ts := rfl

@[simp] theorem tags_text (content : List Char) (ts : List Token) :
    tags (.text content :: ts) = tags ts := rfl

@[simp] theorem texts_tag (inner : String) (ts : List Token) :
    texts (.tag inner :: ts) = texts ts := rfl

@[simp] theorem texts_text (content : List Char) (ts : List Token) :
    texts (.text content :: ts) = content :: texts ts := rfl

@[simp] theorem tags_append (ts more : List Token) : tags (ts ++ more) = tags ts ++ tags more :=
  List.filterMap_append

@[simp] theorem texts_append (ts more : List Token) : texts (ts ++ more) = texts ts ++ texts more :=
  List.filterMap_append

@[simp] theorem tags_textToken (content : List Char) : tags (textToken content) = [] := by
  unfold textToken
  split <;> rfl

theorem mem_texts_textToken {content cs : List Char} (h : cs ∈ texts (textToken content)) :
    cs = content := by
  unfold textToken at h
  split at h
  · exact absurd h List.not_mem_nil
  · exact List.mem_singleton.1 h

/-- The tags of an element do not depend on its content. -/
theorem tags_elementTokens (names : List String) (content : List Char) :
    tags (elementTokens names content) = names ++ (names.map ("/" ++ ·)).reverse := by
  induction names with
  | nil => exact tags_textToken content
  | cons name names ih =>
    have hnone : tags [] = [] := rfl
    rw [elementTokens, tags_tag, tags_append, ih, tags_tag, hnone, List.map_cons,
      List.reverse_cons, List.append_assoc, List.cons_append]

/-- The only text of an element is its content. -/
theorem texts_elementTokens (names : List String) (content : List Char) :
    texts (elementTokens names content) = texts (textToken content) := by
  induction names with
  | nil => rfl
  | cons name names ih =>
    have hnone : texts [] = [] := rfl
    rw [elementTokens, texts_tag, texts_append, ih, texts_tag, hnone, List.append_nil]

namespace Reader

variable {name tag content : String} {names : List String}

/-- What ends an element has no bracket either. -/
theorem bracket_notMem_slash (h : '>' ∉ name.toList) : '>' ∉ ("/" ++ name).toList := by
  rw [String.toList_append, List.mem_append]
  rintro (hmem | hmem)
  · exact absurd hmem (by decide)
  · exact h hmem

/-- An element and the tag behind it. A text is no token before the next tag starts, so where no name
is left it is only that tag which ends the content. -/
theorem run_element_tag (hnames : ∀ name ∈ names, '>' ∉ name.toList) (htag : '>' ∉ tag.toList)
    (hcontent : '<' ∉ content.toList) (done : List Token) :
    (Reader.mk done false []).run (element names content ++ ("<" ++ tag ++ ">")) =
      ⟨done ++ elementTokens names content.toList ++ [.tag tag], false, []⟩ := by
  induction names generalizing done tag with
  | nil =>
    rw [element, run_append, run_text hcontent, run_tag htag, List.append_nil, List.reverse_reverse,
      elementTokens]
  | cons name names ih =>
    obtain ⟨hname, hrest⟩ := List.forall_mem_cons.1 hnames
    have hnone : textToken ([] : List Char).reverse = [] := rfl
    have helement : (Reader.mk done false []).run (element (name :: names) content) =
        ⟨done ++ elementTokens (name :: names) content.toList, false, []⟩ := by
      rw [element, run_append, run_tag hname, ih hrest (bracket_notMem_slash hname), hnone,
        elementTokens]
      simp only [List.append_nil, List.append_assoc, List.cons_append, List.nil_append]
    rw [run_append, helement, run_tag htag, hnone, List.append_nil]

/-- An element is read as written. -/
theorem run_element (hnames : ∀ inner ∈ name :: names, '>' ∉ inner.toList)
    (hcontent : '<' ∉ content.toList) (done : List Token) (seen : List Char) :
    (Reader.mk done false seen).run (element (name :: names) content) =
      ⟨done ++ textToken seen.reverse ++ elementTokens (name :: names) content.toList, false,
        []⟩ := by
  obtain ⟨hname, hrest⟩ := List.forall_mem_cons.1 hnames
  rw [element, run_append, run_tag hname,
    run_element_tag hrest (bracket_notMem_slash hname) hcontent, elementTokens]
  simp only [List.append_assoc, List.cons_append, List.nil_append]

end Reader

/-- The content of the element at the front, which has to hold elements of the further names one in
the other, and what follows. -/
def element? : List String → List Token → Option (List Char × List Token)
  | [], .text content :: r => some (content, r)
  | [], r => some ([], r)
  | name :: names, .tag start :: r =>
    if start = name then
      match element? names r with
      | some (content, .tag stop :: rest) =>
        if stop = "/" ++ name then some (content, rest) else none
      | _ => none
    else none
  | _ :: _, _ => none

/-- The contents of all such elements of a page, in order. -/
def elements (names : List String) : List Token → List (List Char)
  | [] => []
  | t :: r =>
    -- an element may hold further ones, so the search goes on inside of it
    match element? names (t :: r) with
    | some (content, _) => content :: elements names r
    | none => elements names r

variable {name : String} {names : List String} {ts : List Token}

theorem element?_elementTokens (names : List String) (content : List Char) (tag : String)
    (r : List Token) :
    element? names (elementTokens names content ++ .tag tag :: r) =
      some (content, .tag tag :: r) := by
  induction names generalizing tag r with
  | nil =>
    rw [elementTokens, textToken]
    split
    · next hempty => rw [hempty]; rfl
    · rfl
  | cons name names ih =>
    rw [elementTokens, List.cons_append, List.append_assoc, List.singleton_append, element?,
      if_pos rfl, ih]
    exact if_pos rfl

/-- What has no tag of the outermost name holds no such element. -/
theorem elements_append (names : List String) (h : name ∉ tags ts) (r : List Token) :
    elements (name :: names) (ts ++ r) = elements (name :: names) r := by
  induction ts with
  | nil => rfl
  | cons t ts ih =>
    cases t with
    | text content => exact ih h
    | tag start =>
      have hmem : name ∉ start :: tags ts := h
      rw [List.mem_cons, not_or] at hmem
      obtain ⟨hstart, hts⟩ := hmem
      have hnone : element? (name :: names) (.tag start :: (ts ++ r)) = none :=
        if_neg (Ne.symm hstart)
      rw [List.cons_append, elements, hnone]
      exact ih hts

theorem elements_eq_nil (h : name ∉ tags ts) : elements (name :: names) ts = [] := by
  have hnone := elements_append names h []
  rwa [List.append_nil] at hnone

/-- An element that is written is read back, in front of whatever follows. -/
theorem elements_elementTokens
    (h : name ∉ names ++ (names.map ("/" ++ ·)).reverse ++ ["/" ++ name]) (content : List Char)
    (r : List Token) :
    elements (name :: names) (elementTokens (name :: names) content ++ r) =
      content :: elements (name :: names) r := by
  have hinner : name ∉ tags (elementTokens names content ++ [.tag ("/" ++ name)]) := by
    rw [tags_append, tags_elementTokens]
    exact h
  have hfront : element? (name :: names)
      (.tag name :: (elementTokens names content ++ .tag ("/" ++ name) :: r)) =
        some (content, r) := by
    rw [element?, if_pos rfl, element?_elementTokens]
    exact if_pos rfl
  rw [elementTokens, List.cons_append, List.append_assoc, List.singleton_append, elements, hfront]
  have hrest := elements_append names hinner r
  rw [List.append_assoc, List.singleton_append] at hrest
  exact congrArg (content :: ·) hrest

end Html

end Bindery
