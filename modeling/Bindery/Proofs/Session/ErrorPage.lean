import Mathlib.Data.Finset.Card
import Mathlib.Data.List.Induction
import Bindery.Proofs.Graph.Reverse
import Bindery.Proofs.Session.Markup
import Bindery.Proofs.Text.Lines

/-!
# What the page of a failed build tells

The page is a fixed one with texts of the errors put in at two places, as often as there are modules
and messages. The fixed parts are read once; whatever is put in between is escaped, so it is read as
the content of the element that it was put into.

* `ErrorPage.tokens_text` : what a page is read as.
* `ErrorPage.elements_messages`, `ErrorPage.elements_modules`, `ErrorPage.text_injective` : all that
  was put in is told back.
* `ErrorPage.tags_tokens` : the tags depend on how many messages and modules there are.
* `ErrorPage.Tells`, `ErrorPage.tells_text` : the page of an error.
-/

namespace Bindery

namespace ErrorPage

open Html

/-! ## The parts of a page

Associativity is used on variables only: of a literal it would be computed whether it is made of two
parts. -/

theorem code_eq (content : String) :
    "<code>" ++ content ++ "</code>" = element ["code"] content :=
  show "<code>" ++ content ++ "</code>" = "<code>" ++ (content ++ "</code>") from
    String.append_assoc

theorem item_eq (message : String) :
    item message = "      " ++ element ["li", "pre"] (escape message) := by
  have hassoc : ∀ a b c d e f : String,
      a ++ (b ++ c) ++ d ++ (e ++ f) = a ++ (b ++ (c ++ (d ++ e) ++ f)) := by
    intro a b c d e f
    simp only [String.append_assoc]
  exact hassoc "      " "<li>" "<pre>" (escape message) "</pre>" "</li>"

/-- The elements of the modules. -/
def codes (p : ErrorPage) : String :=
  String.intercalate ", " (p.modules.map fun m => element ["code"] (escape m.text))

/-- What stands between the modules and the messages. -/
def listStart : String := "<" ++ "/p" ++ ">" ++ ("\n    " ++ ("<" ++ "ul" ++ ">" ++ "\n"))

/-- The parts of a page. -/
theorem text_eq (p : ErrorPage) : p.text =
    Text.unlines headLines ++ "    <p>Failing modules: " ++ p.codes ++ listStart ++
      Text.unlines (p.messages.map item) ++ Text.unlines tailLines := by
  have hline : moduleLine p.modules = "    <p>Failing modules: " ++ p.codes ++ "</p>" := by
    have hcodes : (p.modules.map fun m => "<code>" ++ escape m.text ++ "</code>") =
        p.modules.map fun m => element ["code"] (escape m.text) :=
      List.map_congr_left fun m _ => code_eq _
    exact congrArg (fun cs => "    <p>Failing modules: " ++ String.intercalate ", " cs ++ "</p>")
      hcodes
  have hassoc : ∀ a b c d e : String,
      String.join [a ++ b ++ c ++ d, e ++ d] = a ++ (b ++ (c ++ (d ++ (e ++ d)))) := by
    intro a b c d e
    simp only [String.join_cons, String.join_nil, String.append_empty, String.append_assoc]
  have hlist : Text.unlines [moduleLine p.modules, "    <ul>"] =
      "    <p>Failing modules: " ++ (p.codes ++
        ("</p>" ++ ("\n" ++ ("    <ul>" ++ "\n")))) := by
    rw [hline]
    exact hassoc _ _ _ _ _
  have hwhole : ∀ a b c d e f : String,
      a ++ (b ++ (c ++ d)) ++ e ++ f = a ++ b ++ c ++ d ++ e ++ f := by
    intro a b c d e f
    simp only [String.append_assoc]
  rw [text, Text.unlines_append, Text.unlines_append, Text.unlines_append, hlist]
  exact hwhole _ _ _ _ _ _

/-! ## The parts that are the same on every page -/

/-- What is read of such a part: none of the elements that texts are put into, and nothing
special. -/
@[mk_iff]
structure Fixed (ts : List Token) : Prop where
  li : "li" ∉ tags ts
  code : "code" ∉ tags ts
  plain : ∀ content ∈ texts ts, ∀ c ∈ content, c ∉ specials

theorem Fixed.inert {ts : List Token} (h : Fixed ts) : ∀ content ∈ texts ts, Inert content :=
  fun content hcontent => .of_plain (h.plain content hcontent)

/-- The reader in front of the first module. -/
def opening : Reader :=
  (Reader.mk [] false []).run (Text.unlines headLines ++ "    <p>Failing modules: ")

/-- The reader at the end of the page, of which it has read the last lines only. -/
def closing : Reader := (Reader.mk [] false ['\n']).run (Text.unlines tailLines)

set_option maxRecDepth 4000 in
theorem opening_spec : opening.inTag = false ∧ (∀ c ∈ opening.seen, c ∉ specials) ∧
    Fixed opening.done := by
  simp only [fixed_iff, opening, Reader.run, Text.unlines, headLines, List.map_cons, List.map_nil,
    String.join_cons, String.join_nil, String.toList_append, String.append_empty]
  -- a line is taken as its characters, which are read far faster than a string is decoded
  repeat rw [String.toList_ofList]
  decide +kernel

theorem fixed_closing : Fixed closing.tokens := by
  simp only [fixed_iff, closing, Reader.run, Text.unlines, tailLines, List.map_cons, List.map_nil,
    String.join_cons, String.join_nil, String.toList_append, String.append_empty]
  repeat rw [String.toList_ofList]
  decide +kernel

/-! ## Reading a page -/

/-- What the modules are read as, the first of them behind a text. -/
def codeTokens (before : List Char) : List ModuleId → List Token
  | [] => []
  | m :: r =>
    textToken before ++ elementTokens ["code"] (escape m.text).toList ++ codeTokens ", ".toList r

theorem run_codes (modules : List ModuleId) (done : List Token) (seen : List Char) :
    (Reader.mk done false seen).run
        (String.intercalate ", " (modules.map fun m => element ["code"] (escape m.text))) =
      ⟨done ++ codeTokens seen.reverse modules, false, if modules = [] then seen else []⟩ := by
  have hname : ∀ inner ∈ ["code"], '>' ∉ inner.toList := by decide
  have hbreak : '<' ∉ ", ".toList := by decide
  have hbehind : (", ".toList.reverse ++ []).reverse = ", ".toList := rfl
  -- the text in front is part of the first element's tokens, so it varies: only the first one stands
  -- behind the fixed part, every other one behind a comma
  induction modules generalizing done seen with
  | nil =>
    rw [List.map_nil, String.intercalate_nil, codeTokens, List.append_nil, if_pos rfl]
    rfl
  | cons m r ih =>
    have hfirst := Reader.run_element hname (inert_escape m.text).bracket_notMem done seen
    rw [if_neg (List.cons_ne_nil m r), codeTokens]
    cases r with
    | nil =>
      rw [List.map_cons, List.map_nil, String.intercalate_singleton, hfirst, codeTokens,
        List.append_nil, List.append_assoc]
    | cons next r =>
      rw [List.map_cons, List.map_cons, String.intercalate_cons_cons, Reader.run_append,
        Reader.run_append, hfirst, Reader.run_text hbreak]
      rw [List.map_cons] at ih
      rw [ih, hbehind, if_neg (List.cons_ne_nil next r)]
      simp only [List.append_assoc]

/-- What a message is read as. -/
def itemTokens (message : String) : List Token :=
  .text "\n      ".toList :: elementTokens ["li", "pre"] (escape message).toList

theorem run_items (messages : List String) (done : List Token) :
    (Reader.mk done false ['\n']).run (Text.unlines (messages.map item)) =
      ⟨done ++ messages.flatMap itemTokens, false, ['\n']⟩ := by
  have hnames : ∀ inner ∈ ["li", "pre"], '>' ∉ inner.toList := by decide
  have hindent : '<' ∉ "      ".toList := by decide
  have hbreak : '<' ∉ "\n".toList := by decide
  have hbefore : textToken ("      ".toList.reverse ++ ['\n']).reverse =
      [.text "\n      ".toList] := rfl
  have hbehind : "\n".toList.reverse ++ [] = ['\n'] := rfl
  -- every line ends the text that the next one starts in
  induction messages generalizing done with
  | nil =>
    rw [List.map_nil, List.flatMap_nil, List.append_nil]
    rfl
  | cons m r ih =>
    have hcontent := (inert_escape m).bracket_notMem
    rw [List.map_cons, Text.unlines_cons, item_eq, Reader.run_append, Reader.run_append,
      Reader.run_append, Reader.run_text hindent, Reader.run_element hnames hcontent, hbefore,
      Reader.run_text hbreak, hbehind, ih, List.flatMap_cons, itemTokens]
    simp only [List.append_assoc, List.cons_append, List.nil_append]

/-- What the start of the list is read as. -/
def listTokens (p : ErrorPage) : List Token :=
  textToken (if p.modules = [] then opening.seen.reverse else []) ++
    [.tag "/p", .text "\n    ".toList, .tag "ul"]

theorem run_listStart (done : List Token) (seen : List Char) :
    (Reader.mk done false seen).run listStart =
      ⟨done ++ (textToken seen.reverse ++ [.tag "/p", .text "\n    ".toList, .tag "ul"]), false,
        ['\n']⟩ := by
  have hp : '>' ∉ "/p".toList := by decide
  have hul : '>' ∉ "ul".toList := by decide
  have hindent : '<' ∉ "\n    ".toList := by decide
  have hbreak : '<' ∉ "\n".toList := by decide
  have hbefore : textToken ("\n    ".toList.reverse ++ []).reverse = [.text "\n    ".toList] := rfl
  have hbehind : "\n".toList.reverse ++ [] = ['\n'] := rfl
  rw [listStart, Reader.run_append, Reader.run_append, Reader.run_append, Reader.run_tag hp,
    Reader.run_text hindent, Reader.run_tag hul, hbefore, Reader.run_text hbreak, hbehind]
  simp only [List.append_assoc, List.cons_append, List.nil_append]

/-- A page is read part by part. -/
theorem tokens_text (p : ErrorPage) : tokens p.text =
    opening.done ++ codeTokens opening.seen.reverse p.modules ++ p.listTokens ++
      p.messages.flatMap itemTokens ++ closing.tokens := by
  have hopening : (Reader.mk [] false []).run
      (Text.unlines headLines ++ "    <p>Failing modules: ") =
        ⟨opening.done, false, opening.seen⟩ := Reader.eq_of_inTag opening_spec.1
  have hseen : (if p.modules = [] then opening.seen else []).reverse =
      if p.modules = [] then opening.seen.reverse else [] := apply_ite _ _ _ _
  have hclosing (ts : List Token) : (Reader.mk ts false ['\n']).run (Text.unlines tailLines) =
      ⟨ts ++ closing.done, closing.inTag, closing.seen⟩ := by
    have hbehind := Reader.run_append_done ts [] false ['\n'] (Text.unlines tailLines)
    rwa [List.append_nil] at hbehind
  rw [tokens, text_eq, Reader.run_append, Reader.run_append, Reader.run_append, Reader.run_append,
    hopening, codes, run_codes, run_listStart, hseen, run_items, hclosing,
    Reader.tokens_append_done, listTokens]

/-! ## The tags of a page -/

theorem tags_codeTokens (before : List Char) (modules : List ModuleId) :
    tags (codeTokens before modules) =
      (List.replicate modules.length ["code", "/code"]).flatten := by
  induction modules generalizing before with
  | nil => rfl
  | cons m ms ih =>
    rw [codeTokens, tags_append, tags_append, tags_textToken, tags_elementTokens, ih,
      List.length_cons, List.replicate_succ, List.flatten_cons]
    rfl

theorem tags_items (messages : List String) : tags (messages.flatMap itemTokens) =
    (List.replicate messages.length ["li", "pre", "/pre", "/li"]).flatten := by
  induction messages with
  | nil => rfl
  | cons m ms ih =>
    rw [List.flatMap_cons, tags_append, itemTokens, tags_text, tags_elementTokens, ih,
      List.length_cons, List.replicate_succ, List.flatten_cons]
    rfl

theorem tags_listTokens (p : ErrorPage) : tags p.listTokens = ["/p", "ul"] := by
  rw [listTokens, tags_append, tags_textToken]
  rfl

theorem fixed_listTokens (p : ErrorPage) : Fixed p.listTokens := by
  refine ⟨by rw [tags_listTokens]; decide, by rw [tags_listTokens]; decide, ?_⟩
  obtain ⟨-, hseen, -⟩ := opening_spec
  intro content hcontent
  rw [listTokens, texts_append, texts_tag, texts_text, texts_tag] at hcontent
  rcases List.mem_append.1 hcontent with htext | hindent
  · rw [mem_texts_textToken htext]
    split
    · exact fun c hc => hseen c (List.mem_reverse.1 hc)
    · exact fun _ h => absurd h List.not_mem_nil
  · rw [List.mem_singleton.1 hindent]
    decide

/-- Only the numbers of messages and modules decide on the tags of a page. -/
theorem tags_tokens (p : ErrorPage) : tags (tokens p.text) =
    tags opening.done ++ (List.replicate p.modules.length ["code", "/code"]).flatten ++
      ["/p", "ul"] ++ (List.replicate p.messages.length ["li", "pre", "/pre", "/li"]).flatten ++
      tags closing.tokens := by
  rw [tokens_text]
  simp only [tags_append, tags_codeTokens, tags_items, tags_listTokens]

/-! ## What was put in -/

theorem elements_codeTokens (before : List Char) (modules : List ModuleId) (r : List Token) :
    elements ["code"] (codeTokens before modules ++ r) =
      (modules.map fun m => (escape m.text).toList) ++ elements ["code"] r := by
  induction modules generalizing before with
  | nil => rfl
  | cons m ms ih =>
    have hbefore : "code" ∉ tags (textToken before) := by
      rw [tags_textToken]
      exact List.not_mem_nil
    rw [codeTokens, List.append_assoc, List.append_assoc, elements_append _ hbefore,
      elements_elementTokens (by decide), ih, List.map_cons, List.cons_append]

theorem elements_items (messages : List String) (r : List Token) :
    elements ["li", "pre"] (messages.flatMap itemTokens ++ r) =
      (messages.map fun m => (escape m).toList) ++ elements ["li", "pre"] r := by
  induction messages with
  | nil => rfl
  | cons m ms ih =>
    have hbefore : "li" ∉ tags [.text "\n      ".toList] := List.not_mem_nil
    have hitem : itemTokens m ++ (ms.flatMap itemTokens ++ r) = [.text "\n      ".toList] ++
        (elementTokens ["li", "pre"] (escape m).toList ++ (ms.flatMap itemTokens ++ r)) := rfl
    rw [List.flatMap_cons, List.append_assoc, hitem, elements_append _ hbefore,
      elements_elementTokens (by decide), ih, List.map_cons, List.cons_append]

theorem notMem_flatten_replicate {tag : String} {ts : List String} (h : tag ∉ ts) (n : Nat) :
    tag ∉ (List.replicate n ts).flatten := by
  intro hmem
  obtain ⟨piece, hpiece, htag⟩ := List.mem_flatten.1 hmem
  rw [List.eq_of_mem_replicate hpiece] at htag
  exact h htag

theorem map_unescape {α : Type} (told : α → String) (xs : List α) :
    (xs.map fun x => (escape (told x)).toList).map unescape = xs.map told := by
  rw [List.map_map]
  exact List.map_congr_left fun x _ => unescape_escape (told x)

/-- The messages are told back by the items of the list. -/
theorem elements_messages (p : ErrorPage) :
    (elements ["li", "pre"] (tokens p.text)).map unescape = p.messages := by
  have hcodes : "li" ∉ tags (codeTokens opening.seen.reverse p.modules) := by
    rw [tags_codeTokens]
    exact notMem_flatten_replicate (by decide) _
  rw [tokens_text, List.append_assoc, List.append_assoc, List.append_assoc,
    elements_append _ opening_spec.2.2.li, elements_append _ hcodes,
    elements_append _ p.fixed_listTokens.li, elements_items, elements_eq_nil fixed_closing.li,
    List.append_nil]
  exact (map_unescape id p.messages).trans (List.map_id _)

/-- The modules are told back by the elements of code. -/
theorem elements_modules (p : ErrorPage) :
    (elements ["code"] (tokens p.text)).map unescape = p.modules.map ModuleId.text := by
  have hitems : "code" ∉ tags (p.messages.flatMap itemTokens) := by
    rw [tags_items]
    exact notMem_flatten_replicate (by decide) _
  rw [tokens_text, List.append_assoc, List.append_assoc, List.append_assoc,
    elements_append _ opening_spec.2.2.code, elements_codeTokens,
    elements_append _ p.fixed_listTokens.code, elements_append _ hitems,
    elements_eq_nil fixed_closing.code, List.append_nil, map_unescape]

/-- A page tells all that it is made of. -/
theorem text_injective : Function.Injective ErrorPage.text := by
  intro p q h
  have hmessages : p.messages = q.messages := by
    rw [← elements_messages p, h, elements_messages]
  have hmodules : p.modules = q.modules := by
    have hinjective : Function.Injective ModuleId.text := by
      rintro ⟨a⟩ ⟨b⟩ htext
      exact congrArg ModuleId.mk htext
    refine List.map_injective_iff.2 hinjective ?_
    rw [← elements_modules p, h, elements_modules]
  cases p
  cases q
  exact congrArg₂ ErrorPage.mk hmessages hmodules

theorem inert_codeTokens {before : List Char} (hbefore : Inert before) (modules : List ModuleId) :
    ∀ content ∈ texts (codeTokens before modules), Inert content := by
  induction modules generalizing before with
  | nil => exact fun _ h => absurd h List.not_mem_nil
  | cons m ms ih =>
    have hbehind : Inert ", ".toList := .of_plain (by decide)
    intro content hcontent
    rw [codeTokens, texts_append, texts_append, texts_elementTokens] at hcontent
    rcases List.mem_append.1 hcontent with hfirst | hrest
    · rcases List.mem_append.1 hfirst with htext | hcode
      · rwa [mem_texts_textToken htext]
      · rw [mem_texts_textToken hcode]
        exact inert_escape m.text
    · exact ih hbehind content hrest

theorem inert_items (messages : List String) :
    ∀ content ∈ texts (messages.flatMap itemTokens), Inert content := by
  induction messages with
  | nil => exact fun _ h => absurd h List.not_mem_nil
  | cons m ms ih =>
    have hbefore : Inert "\n      ".toList := .of_plain (by decide)
    intro content hcontent
    rw [List.flatMap_cons, texts_append, itemTokens, texts_text, texts_elementTokens] at hcontent
    rcases List.mem_append.1 hcontent with hfirst | hrest
    · rcases List.mem_cons.1 hfirst with rfl | hitem
      · exact hbefore
      · rw [mem_texts_textToken hitem]
        exact inert_escape m
    · exact ih content hrest

/-- Nothing in the texts of a page can be taken for markup. -/
theorem inert_tokens (p : ErrorPage) : ∀ content ∈ texts (tokens p.text), Inert content := by
  obtain ⟨-, hseen, hopening⟩ := opening_spec
  have hbefore : Inert opening.seen.reverse := .of_plain fun c hc => hseen c (List.mem_reverse.1 hc)
  rw [tokens_text]
  simp only [texts_append, List.forall_mem_append]
  exact ⟨⟨⟨⟨hopening.inert, inert_codeTokens hbefore p.modules⟩, p.fixed_listTokens.inert⟩,
    inert_items p.messages⟩, fixed_closing.inert⟩

/-! ## The page of an error -/

/-- The one list holds what the other holds, each once, in the order of the first occurrences. -/
structure FirstOccurrences {α : Type} [DecidableEq α] (xs ys : List α) : Prop where
  nodup : ys.Nodup
  mem_iff : ∀ x, x ∈ ys ↔ x ∈ xs
  ordered : ys.Pairwise fun a b => xs.idxOf a < xs.idxOf b

theorem firstOccurrences_eraseDups {α : Type} [DecidableEq α] (xs : List α) :
    FirstOccurrences xs xs.eraseDups := by
  refine ⟨nodup_eraseDups xs, fun x => List.mem_eraseDups, ?_⟩
  -- what comes in at the end is new, or nothing is added for it
  induction xs using List.reverseRecOn with
  | nil => exact .nil
  | append_singleton xs a ih =>
    have hbefore : xs.eraseDups.Pairwise fun b c => (xs ++ [a]).idxOf b < (xs ++ [a]).idxOf c := by
      refine ih.imp_of_mem fun hb hc hlt => ?_
      rwa [List.idxOf_append_of_mem (List.mem_eraseDups.1 hb),
        List.idxOf_append_of_mem (List.mem_eraseDups.1 hc)]
    rw [List.eraseDups_append]
    by_cases ha : a ∈ xs
    · have hnone : [a].removeAll xs = [] := by simp [List.removeAll, ha]
      rwa [hnone, List.eraseDups_nil, List.append_nil]
    · have hnew : [a].removeAll xs = [a] := by simp [List.removeAll, ha]
      have hsingle : [a].eraseDups = [a] := by simp [List.eraseDups_cons]
      rw [hnew, hsingle, List.pairwise_append]
      refine ⟨hbefore, List.pairwise_singleton _ _, fun b hb c hc => ?_⟩
      have hmem := List.mem_eraseDups.1 hb
      rw [List.mem_singleton.1 hc, List.idxOf_append_of_mem hmem, List.idxOf_append_of_notMem ha]
      exact Nat.lt_of_lt_of_le (List.idxOf_lt_length_of_mem hmem) (Nat.le_add_right _ _)

/-- A page tells of an error: the messages of the single errors, and the modules that these concern.
Nothing of the error stands there as markup. -/
structure Tells (page : String) (e : BuildError) : Prop where
  messages : (elements ["li", "pre"] (tokens page)).map unescape = e.leaves.map BuildError.message
  modules : ∃ failing, FirstOccurrences (e.leaves.filterMap BuildError.module?) failing ∧
    (elements ["code"] (tokens page)).map unescape = failing.map ModuleId.text
  inert : ∀ content ∈ texts (tokens page), Inert content

theorem length_modules_ofError (e : BuildError) :
    (ofError e).modules.length = (e.leaves.filterMap BuildError.module?).toFinset.card := by
  have hsame : (e.leaves.filterMap BuildError.module?).toFinset = (ofError e).modules.toFinset := by
    ext m
    rw [List.mem_toFinset, List.mem_toFinset]
    exact List.mem_eraseDups.symm
  have hnodup : (ofError e).modules.Nodup := nodup_eraseDups _
  rw [hsame, List.toFinset_card_of_nodup hnodup]

/-- Whatever the texts of an error are, its page tells them, and the tags of the page are those of
every other error with as many single errors and modules. -/
theorem tells_text (e : BuildError) : Tells (ofError e).text e ∧
    ∀ other : BuildError, other.leaves.length = e.leaves.length →
      (other.leaves.filterMap BuildError.module?).toFinset.card =
        (e.leaves.filterMap BuildError.module?).toFinset.card →
      tags (tokens (ofError other).text) = tags (tokens (ofError e).text) := by
  constructor
  · exact ⟨elements_messages (ofError e), ⟨_, firstOccurrences_eraseDups _,
      elements_modules (ofError e)⟩, inert_tokens (ofError e)⟩
  · intro other hleaves hmodules
    have hmessages : (ofError other).messages.length = (ofError e).messages.length := by
      simp only [ofError, List.length_map, hleaves]
    rw [tags_tokens, tags_tokens, hmessages, length_modules_ofError, length_modules_ofError,
      hmodules]

/-- Several errors, of texts that would end the elements they are put into. -/
def hostile : BuildError := .aggregate
  [ .transform ⟨"a</code>&.js"⟩ "strict" "</pre></li></ul><script>alert('&lt;')</script>",
    .aggregate [.timedOut ⟨"a</code>&.js"⟩ "slow" 50, .task "<li><pre>\"x\"</pre></li>"] ]

/-- As many errors and modules, with nothing special about their texts. -/
def harmless : BuildError := .aggregate
  [.task "worker panicked", .minify ⟨"main.js"⟩ "minify" "unexpected end", .task "worker panicked"]

theorem tells_text_hostile : Tells (ofError hostile).text hostile ∧
    tags (tokens (ofError harmless).text) = tags (tokens (ofError hostile).text) :=
  ⟨(tells_text hostile).1, (tells_text hostile).2 harmless (by decide) (by decide)⟩

end ErrorPage

end Bindery
