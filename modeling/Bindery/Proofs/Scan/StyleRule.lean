import Bindery.Proofs.Scan.Quotation

/-!
# The rules of a style sheet

A style sheet refers to other files in import rules and in calls of `url`, and such a rule can have
a call in it. The two searches are independent of each other, so a call in a rule is found twice, and
the place of the reference says which of the two counts. For a sheet that has a rule on each of its
lines, what is left is one import for each rule.

* `StyleRule` : a rule that refers to a file, and how it is written.
* `prefers_styleImport`, `prefers_styleUrl` : what is matched where a rule or a call begins.
* `StyleRule.import_begins`, `StyleRule.url_begins` : on a line no other match begins.
* `StyleRule.any_styleImport` : the references that stand in import rules are those of the rules.
* `StyleRule.styleImports_rules` : the imports of a sheet are what its rules refer to.
-/

namespace Bindery.Scan

variable {c e : Cursor} {rest : List Char}

/-! ## Rules -/

/-- A character of a reference. -/
def isBare (c : Char) : Bool :=
  c != '"' && c != '\'' && c != '(' && c != ')' && c != ';' && !Text.isBlank c

theorem isBlank_of_isBare {ch : Char} (h : isBare ch = true) : Text.isBlank ch = false := by
  simp only [isBare, Bool.and_eq_true, Bool.not_eq_true'] at h
  exact h.2

/-- A reference of a style sheet. -/
structure Reference where
  text : String
  nonempty : text ≠ ""
  bare : ∀ ch ∈ text.toList, isBare ch = true

namespace Reference

/-- The reference is to inline data, an address on another host or a place in the same document. -/
def isRemote (s : Reference) : Bool :=
  ["data:", "http://", "https://", "//", "#"].any fun p => p.toList.isPrefixOf s.text.toList

@[simp] theorem trim_text (s : Reference) : Text.trim s.text = s.text :=
  Text.trim_eq_self fun ch hch => isBlank_of_isBare (s.bare ch hch)

@[simp] theorem isLocalReference_text (s : Reference) : isLocalReference s.text = !s.isRemote := by
  rw [isLocalReference, s.trim_text, List.isEmpty_eq_false_iff.2 (by simpa using s.nonempty),
    Bool.false_or]
  rfl

end Reference

/-- The marks that a reference is quoted by. -/
inductive Quotes where
  | none
  | single
  | double

def Quotes.text : Quotes → String
  | none => ""
  | single => "'"
  | double => "\""

/-- The forms of rules that refer to a file. -/
inductive StyleForm where
  | importText (double : Bool)
  | importUrl (quotes : Quotes)
  | background (name : Identifier) (quotes : Quotes)

namespace StyleForm

def isImport : StyleForm → Bool
  | importText _ => true
  | importUrl _ => true
  | background _ _ => false

def quotes : StyleForm → Quotes
  | importText double => if double then .double else .single
  | importUrl quotes => quotes
  | background _ quotes => quotes

/-- What stands before the reference and the call that it is in. -/
def before : StyleForm → String
  | importText _ => "@import "
  | importUrl _ => "@import "
  | background name _ => "." ++ name.text ++ " \x7b background: "

def call : StyleForm → String
  | importText _ => ""
  | importUrl _ => "url("
  | background _ _ => "url("

def closing : StyleForm → String
  | importText _ => ""
  | importUrl _ => ")"
  | background _ _ => ")"

/-- What ends the rule. -/
def ending : StyleForm → String
  | importText _ => ";"
  | importUrl _ => ";"
  | background _ _ => "; \x7d"

end StyleForm

/-- A rule of a style sheet that refers to a file. -/
structure StyleRule where
  form : StyleForm
  reference : Reference

namespace StyleRule

/-- The rule as it is written. -/
def line (r : StyleRule) : String :=
  r.form.before ++ r.form.call ++ r.form.quotes.text ++ r.reference.text ++ r.form.quotes.text ++
    r.form.closing ++ r.form.ending

/-- What the rule refers to. -/
def edge (r : StyleRule) : Import :=
  { specifier := r.reference.text, kind := if r.form.isImport then .static else .url }

end StyleRule

/-! ## The match of an import rule -/

/-- Quotation marks, or none. -/
def IsQuotes (q : List Char) : Prop := q = [] ∨ ∃ mark, isQuoteMark mark = true ∧ q = [mark]

theorem prefers_optional_quoteMark {q rest : List Char} (hq : IsQuotes q)
    (hrest : c.rest = q ++ rest) (hstop : ∀ ch ∈ rest.head?, isQuoteMark ch = false) :
    Prefers (optional quoteMark) c (c.past q rest) := by
  rcases hq with rfl | ⟨mark, hmark, rfl⟩
  · obtain rfl : c.rest = rest := hrest
    rw [Cursor.past_nil]
    refine prefers_optional_none ?_
    cases htext : c.rest with
    | nil => simp [quoteMark, oneOf, htext]
    | cons ch r =>
      have hch : isQuoteMark ch = false := hstop ch (by simp [htext])
      simpa [quoteMark, oneOf, htext, isQuoteMark] using hch
  · exact prefers_optional (prefers_oneOf hrest hmark)

theorem prefers_blanks_none (hstop : ∀ ch ∈ c.rest.head?, Text.isBlank ch = false) :
    Prefers blanks c c := by
  have h : Prefers blanks c (c.past [] c.rest) := prefers_run rfl nil_mem_spaces hstop
  rwa [Cursor.past_nil] at h

theorem word_eq_nil {w : List Char} {x : Char} (hw : w.head? = some x)
    (h : c.rest.head? ≠ some x) : word w c = [] := by
  obtain ⟨ws, rfl⟩ := List.head?_eq_some_iff.1 hw
  unfold word
  split
  · next ch r hrest =>
    have hne : ch ≠ x := by
      rintro rfl
      exact h (by rw [hrest]; rfl)
    rw [if_neg hne]
  · rfl

/-- The call that a reference can be in, and what closes it. -/
inductive IsCall : List Char → List Char → Prop
  | none : IsCall [] []
  | url : IsCall "url(".toList [')']

theorem IsQuotes.head?_append {q t : List Char} (hq : IsQuotes q) {ch : Char}
    (h : ch ∈ (q ++ t).head?) : isQuoteMark ch = true ∨ ch ∈ t.head? := by
  rcases hq with rfl | ⟨mark, hmark, rfl⟩
  · exact .inr h
  · obtain rfl : mark = ch := Option.some.inj h
    exact .inl hmark

theorem isQuoteMark_of_isBare {ch : Char} (h : isBare ch = true) : isQuoteMark ch = false :=
  isQuoteMark_eq_false_of (by decide) (by decide) h

theorem ne_of_isQuoteMark {ch : Char} (h : isQuoteMark ch = true) :
    isBare ch = false ∧ Text.isBlank ch = false ∧ ch ≠ 'u' := by
  simp only [isQuoteMark, Bool.or_eq_true, decide_eq_true_eq] at h
  rcases h with rfl | rfl <;> decide

theorem isBare_of_head? {s t : List Char} (hne : s ≠ []) (hs : ∀ ch ∈ s, isBare ch = true)
    {ch : Char} (h : ch ∈ (s ++ t).head?) : isBare ch = true := by
  rw [List.head?_append_of_ne_nil _ hne] at h
  exact hs ch (List.mem_of_mem_head? h)

/-- Neither quotation marks nor a reference begin with a blank. -/
theorem IsQuotes.isBlank_of_head? {q s t : List Char} (hq : IsQuotes q) (hne : s ≠ [])
    (hs : ∀ ch ∈ s, isBare ch = true) {ch : Char} (h : ch ∈ (q ++ (s ++ t)).head?) :
    Text.isBlank ch = false := by
  rcases hq.head?_append h with h | h
  · exact (ne_of_isQuoteMark h).2.1
  · exact isBlank_of_isBare (isBare_of_head? hne hs h)

/-- The first character of what follows a reference. -/
theorem IsCall.head?_closing {call closing t : List Char} (h : IsCall call closing) {ch : Char}
    (hch : ch ∈ (closing ++ t).head?) : ch = ')' ∨ ch ∈ t.head? := by
  cases h with
  | none => exact .inr hch
  | url => exact .inl (Option.some.inj hch).symm

theorem IsCall.eq_nil_or {call closing : List Char} (h : IsCall call closing) :
    call = [] ∨ closing = [')'] := by
  cases h with
  | none => exact .inl rfl
  | url => exact .inr rfl

theorem prefers_call {call closing rest : List Char} (hcall : IsCall call closing)
    (hrest : c.rest = call ++ rest) (hblank : ∀ ch ∈ rest.head?, Text.isBlank ch = false)
    (hother : call = [] → rest.head? ≠ some 'u') :
    Prefers (optional (andThen (word "url(".toList) blanks)) c (c.past call rest) := by
  cases hcall with
  | none =>
    obtain rfl : c.rest = rest := hrest
    have hnone : word "url(".toList c = [] := word_eq_nil (by decide) (hother rfl)
    rw [Cursor.past_nil]
    exact prefers_optional_none (by simp only [andThen, hnone, List.flatMap_nil])
  | url => exact prefers_optional ((prefers_word hrest).andThen (prefers_blanks_none hblank))

theorem prefers_closing {call closing rest : List Char} (hcall : IsCall call closing)
    (hrest : c.rest = closing ++ rest) (hother : rest.head? ≠ some ')') :
    Prefers (optional (word [')'])) c (c.past closing rest) := by
  cases hcall with
  | none =>
    obtain rfl : c.rest = rest := hrest
    rw [Cursor.past_nil]
    exact prefers_optional_none (word_eq_nil rfl hother)
  | url => exact prefers_optional (prefers_word hrest)

/-- An import rule is matched as a whole, and the reference is what is captured. -/
theorem prefers_styleImport {call closing q s rest : List Char} (hcall : IsCall call closing)
    (hq : IsQuotes q) (hquoted : call = [] → q ≠ []) (hne : s ≠ [])
    (hs : ∀ ch ∈ s, isBare ch = true)
    (hrest : c.rest = "@import".toList ++ ([' '] ++ (call ++ (q ++ (s ++ (q ++ (closing ++
      ';' :: rest))))))) :
    Prefers styleImport c (c.capturing ("@import".toList ++ ([' '] ++ (call ++ q))) s
      (q ++ (closing ++ [';'])) rest) := by
  have hclosing : ∀ {ch}, ch ∈ (closing ++ ';' :: rest).head? → ch = ')' ∨ ch = ';' := by
    intro ch h
    rcases hcall.head?_closing h with h | h
    · exact .inl h
    · exact .inr (Option.some.inj h).symm
  -- each part of the rule ends where the next character is not one of its own
  have hbehind : ∀ ch ∈ (q ++ (closing ++ ';' :: rest)).head?, isBare ch = false := by
    intro ch h
    rcases hq.head?_append h with h | h
    · exact (ne_of_isQuoteMark h).1
    · rcases hclosing h with rfl | rfl <;> decide
  have hafter : ∀ {ch}, ch ∈ (closing ++ ';' :: rest).head? →
      isQuoteMark ch = false ∧ Text.isBlank ch = false := by
    intro ch h
    rcases hclosing h with rfl | rfl <;> decide
  simp only [styleImport, inOrder]
  refine (prefers_word hrest).andThen ?_
  refine (prefers_run1 (t := [' ']) rfl (by simp) space_mem_spaces ?_).andThen ?_
  · intro ch h
    cases hcall with
    | none => exact hq.isBlank_of_head? hne hs h
    | url =>
      obtain rfl : 'u' = ch := by simpa using h
      decide
  refine (prefers_call hcall rfl (fun ch h => hq.isBlank_of_head? hne hs h) ?_).andThen ?_
  · intro hnone h
    rcases hq with rfl | ⟨mark, hq, rfl⟩
    · exact hquoted hnone rfl
    · exact (ne_of_isQuoteMark hq).2.2 (Option.some.inj h)
  refine (prefers_optional_quoteMark hq rfl fun ch h => ?_).andThen ?_
  · exact isQuoteMark_of_isBare (isBare_of_head? hne hs h)
  refine (prefers_capture rfl (prefers_run1 rfl hne hs hbehind)).andThen ?_
  refine (prefers_optional_quoteMark hq rfl fun ch h => (hafter h).1).andThen ?_
  refine (prefers_blanks_none fun ch h => (hafter h).2).andThen ?_
  refine (prefers_closing hcall rfl ?_).andThen ?_
  · simp
  refine (prefers_run (t := []) rfl (by simp [mem_runsOf]) ?_).andThen ?_
  · simp
  exact prefers_word_of_eq rfl (by simp)

/-! ## The match of a call -/

/-- A character that a reference in a call can have. -/
def isReferenceChar (c : Char) : Bool := c != '"' && c != '\'' && c != '(' && c != ')'

theorem isReferenceChar_of_isBare {ch : Char} (h : isBare ch = true) :
    isReferenceChar ch = true := by
  simp only [isBare, Bool.and_eq_true] at h
  simp only [isReferenceChar, Bool.and_eq_true]
  exact h.1.1

/-- A quotation mark or a closing bracket. -/
def isMarkOrBracket (ch : Char) : Bool := isQuoteMark ch || ch == ')'

theorem isMarkOrBracket_eq_false_of {p : Char → Bool} {ch : Char} (hdouble : p '"' = false)
    (hsingle : p '\'' = false) (hbracket : p ')' = false) (h : p ch = true) :
    isMarkOrBracket ch = false := by
  rw [isMarkOrBracket, isQuoteMark_eq_false_of hdouble hsingle h, Bool.false_or,
    beq_eq_false_iff_ne]
  rintro rfl
  simp [hbracket] at h

theorem isMarkOrBracket_of_isBare {ch : Char} (h : isBare ch = true) :
    isMarkOrBracket ch = false :=
  isMarkOrBracket_eq_false_of (by decide) (by decide) (by decide) h

/-- Of the starts of what stands in a call, only the whole reference can be followed by its end. -/
theorem reference_eq {q s t tail rest rest' : List Char} (hq : IsQuotes q)
    (hs : ∀ ch ∈ s, isBare ch = true) (ht : ∀ ch ∈ t, isReferenceChar ch = true)
    (htail : tail ∈ (ofClass isQuoteMark + 1) * (Spaces * {[')']}))
    (h : s ++ (q ++ ')' :: rest) = t ++ (tail ++ rest')) : t = s := by
  have hs_stop : ∀ ch ∈ s, isMarkOrBracket ch = false :=
    fun ch hch => isMarkOrBracket_of_isBare (hs ch hch)
  have ht_stop : ∀ ch ∈ t, isMarkOrBracket ch = false :=
    fun ch hch => isMarkOrBracket_eq_false_of (by decide) (by decide) (by decide) (ht ch hch)
  -- what follows the reference is its mark or the bracket
  obtain ⟨y, others, hy, hfollow⟩ : ∃ y others, isMarkOrBracket y = true ∧
      q ++ ')' :: rest = y :: others := by
    rcases hq with rfl | ⟨mark, hmark, rfl⟩
    · exact ⟨')', rest, by decide, rfl⟩
    · exact ⟨mark, _, by simp [isMarkOrBracket, hmark], rfl⟩
  -- between what is taken and its mark or bracket there can only be blanks
  obtain ⟨blanks, z, others', hblanks, hz, hrest⟩ : ∃ blanks z others', blanks ∈ Spaces ∧
      isMarkOrBracket z = true ∧ tail ++ rest' = blanks ++ z :: others' := by
    rcases htail with ⟨_, ⟨mark, hmark, rfl⟩ | rfl, _, ⟨blanks, hblanks, _, rfl, rfl⟩, rfl⟩
    · exact ⟨[], mark, _, nil_mem_spaces, by simp [isMarkOrBracket, hmark], rfl⟩
    · exact ⟨blanks, ')', rest', hblanks, by decide, by simp⟩
  have hblanks_stop : ∀ ch ∈ blanks, isMarkOrBracket ch = false :=
    fun ch hch => isMarkOrBracket_eq_false_of (by decide) (by decide) (by decide) (hblanks ch hch)
  -- so what is taken, with these blanks, is the reference, which has none
  rw [hfollow, hrest, ← List.append_assoc] at h
  obtain ⟨hall, -, -⟩ := append_cons_inj hs_stop
    (List.forall_mem_append.2 ⟨ht_stop, hblanks_stop⟩) hy hz h
  obtain rfl : blanks = [] := by
    rw [List.eq_nil_iff_forall_not_mem]
    intro ch hch
    have hbare := hs ch (by simp [hall, hch])
    simp [isBare, hblanks ch hch] at hbare
  simpa using hall.symm

/-- A call is matched as a whole, and the reference is what is captured. -/
theorem prefers_styleUrl {q s rest : List Char} (hq : IsQuotes q) (hne : s ≠ [])
    (hs : ∀ ch ∈ s, isBare ch = true)
    (hrest : c.rest = "url(".toList ++ (q ++ (s ++ (q ++ ')' :: rest)))) :
    Prefers styleUrl c (c.capturing ("url(".toList ++ q) s (q ++ [')']) rest) := by
  have hreads : Reads (andThen (optional quoteMark) (andThen blanks (word [')'])))
      ((ofClass isQuoteMark + 1) * (Spaces * {[')']})) :=
    reads_quoteMark.optional.andThen (reads_blanks.andThen (reads_word _))
  have hrun : s ∈ ofClass isReferenceChar * runsOf isReferenceChar :=
    mem_run1.2 ⟨hne, fun ch hch => isReferenceChar_of_isBare (hs ch hch)⟩
  simp only [styleUrl, inOrder]
  refine (prefers_word hrest).andThen ?_
  refine (prefers_blanks_none fun ch h => hq.isBlank_of_head? hne hs h).andThen ?_
  refine (prefers_optional_quoteMark hq rfl fun ch h => ?_).andThen ?_
  · exact isQuoteMark_of_isBare (isBare_of_head? hne hs h)
  -- a lazy run tries short references first, but the call does not go on behind them
  refine prefers_andThen_of_unique
    ((reads_lazyRun1 _).mem_capture.2 ⟨s, q ++ ')' :: rest, rfl, hrun, rfl⟩) ?_ ?_
  · intro d hd hgoesOn
    obtain ⟨t, behind, ht, htaken, rfl⟩ := (reads_lazyRun1 _).mem_capture.1 hd
    obtain ⟨e, he⟩ := List.exists_mem_of_ne_nil _ hgoesOn
    obtain ⟨tail, rest', htail, hmem, -⟩ := (hreads _ e).1 he
    rw [Cursor.rest_past] at ht
    rw [Cursor.rest_capturing] at htail
    obtain rfl := reference_eq hq hs (mem_run1.1 htaken).2 hmem (by rw [ht, htail])
    rw [List.append_cancel_left ht]
  have hbracket : ∀ ch ∈ (')' :: rest).head?, isQuoteMark ch = false ∧ Text.isBlank ch = false := by
    intro ch h
    obtain rfl := Option.some.inj h
    decide
  refine (prefers_optional_quoteMark hq rfl fun ch h => (hbracket ch h).1).andThen ?_
  refine (prefers_blanks_none fun ch h => (hbracket ch h).2).andThen ?_
  exact prefers_word_of_eq rfl (by simp)

/-! ## Where a match begins -/

theorem styleImport_begins (h : styleImport c ≠ []) : ∃ ch others,
    c.rest = "@import".toList ++ ch :: others ∧ Text.isBlank ch = true := by
  obtain ⟨e, he⟩ := List.exists_mem_of_ne_nil _ h
  simp only [styleImport, inOrder, andThen, List.mem_flatMap] at he
  obtain ⟨d, hd, d', hd', -⟩ := he
  obtain ⟨_, rest, hrest, rfl, rfl⟩ := (reads_word _ _ _).1 hd
  obtain ⟨_, others, hothers, ⟨_, ⟨ch, hch, rfl⟩, blanks, -, rfl⟩, -⟩ := (reads_blanks1 _ _).1 hd'
  replace hothers : rest = _ := hothers
  exact ⟨ch, blanks ++ others, by rw [hrest, hothers]; simp, hch⟩

theorem styleUrl_begins (h : styleUrl c ≠ []) : ∃ others,
    c.rest = "url".toList ++ '(' :: others := by
  obtain ⟨e, he⟩ := List.exists_mem_of_ne_nil _ h
  simp only [styleUrl, inOrder, andThen, List.mem_flatMap] at he
  obtain ⟨d, hd, -⟩ := he
  obtain ⟨_, rest, hrest, rfl, rfl⟩ := (reads_word _ _ _).1 hd
  exact ⟨rest, by rw [hrest]; simp⟩

/-- An opening bracket, or the end of a line. -/
def isBracketOrBreak (ch : Char) : Bool := ch == '(' || ch == '\n'

theorem isBracketOrBreak_eq_false_of {p : Char → Bool} {ch : Char} (hbracket : p '(' = false)
    (hbreak : p '\n' = false) (h : p ch = true) : isBracketOrBreak ch = false := by
  rw [Bool.eq_false_iff]
  intro hstop
  simp only [isBracketOrBreak, Bool.or_eq_true, beq_iff_eq] at hstop
  rcases hstop with rfl | rfl
  · simp [hbracket] at h
  · simp [hbreak] at h

/-- There is no call on a line without a bracket. -/
theorem not_url_of_avoids {line ending a b others : List Char}
    (hline : ∀ ch ∈ line, isBracketOrBreak ch = false) (hending : LineEnd ending rest)
    (h : line ++ ending = a ++ b) (hb : b ≠ [])
    (hurl : b ++ rest = "url".toList ++ '(' :: others) : False := by
  cases hending with
  | text =>
    rw [List.append_nil] at h hurl
    have hbracket : '(' ∈ line := by simp [h, hurl]
    exact absurd (hline '(' hbracket) (by decide)
  | lineBreak =>
    rcases List.eq_nil_or_concat b with rfl | ⟨b, x, rfl⟩
    · exact hb rfl
    · rw [List.concat_eq_append] at h hurl
      rw [← List.append_assoc] at h
      obtain ⟨hfront, hlast⟩ := List.append_inj' h rfl
      obtain rfl : '\n' = x := List.singleton_inj.1 hlast
      have hb : ∀ ch ∈ b, isBracketOrBreak ch = false :=
        fun ch hch => hline ch (by simp [hfront, hch])
      rw [List.append_assoc, List.singleton_append] at hurl
      have hbreak := (append_cons_inj hb (by decide) (by decide) (by decide) hurl).2.1
      exact absurd hbreak (by decide)

namespace StyleRule

variable {r : StyleRule} {a b ending : List Char}

/-- What stands before the reference. -/
def lead (r : StyleRule) : List Char :=
  r.form.before.toList ++ (r.form.call.toList ++ r.form.quotes.text.toList)

/-- What stands behind the reference. -/
def behind (r : StyleRule) : List Char :=
  r.form.quotes.text.toList ++ (r.form.closing.toList ++ r.form.ending.toList)

theorem toList_line (r : StyleRule) :
    r.line.toList = r.lead ++ (r.reference.text.toList ++ r.behind) := by
  simp [line, lead, behind]

theorem isQuotes (r : StyleRule) : IsQuotes r.form.quotes.text.toList := by
  cases r.form.quotes with
  | none => exact .inl rfl
  | single => exact .inr ⟨'\'', by decide, by decide⟩
  | double => exact .inr ⟨'"', by decide, by decide⟩

theorem isCall (r : StyleRule) : IsCall r.form.call.toList r.form.closing.toList := by
  cases r.form with
  | importText double => exact .none
  | importUrl quotes => simpa [StyleForm.call, StyleForm.closing] using IsCall.url
  | background name quotes => simpa [StyleForm.call, StyleForm.closing] using IsCall.url

theorem nonempty (r : StyleRule) : r.reference.text.toList ≠ [] := by
  simpa using r.reference.nonempty

/-- A reference that is not in a call is quoted. -/
theorem quoted (h : r.form.call.toList = []) : r.form.quotes.text.toList ≠ [] := by
  cases hform : r.form with
  | importText double => cases double <;> simp [StyleForm.quotes, Quotes.text]
  | importUrl quotes => simp [hform, StyleForm.call] at h
  | background name quotes => simp [hform, StyleForm.call] at h

/-- Behind a reference there is its mark or the bracket. -/
theorem exists_behind (r : StyleRule) : ∃ ch others, r.behind = ch :: others ∧
    isMarkOrBracket ch = true ∧ Text.isBlank ch = false := by
  rcases r.isQuotes with hnone | ⟨mark, hmark, hq⟩
  · have hclosing := r.isCall.eq_nil_or.resolve_left fun hcall => quoted hcall hnone
    exact ⟨')', _, by rw [behind, hnone, hclosing]; rfl, by decide, by decide⟩
  · exact ⟨mark, _, by rw [behind, hq]; rfl, by simp [isMarkOrBracket, hmark],
      (ne_of_isQuoteMark hmark).2.1⟩

/-- What stands before the reference and its call. -/
theorem before_cases (r : StyleRule) :
    (r.form.isImport = true ∧ r.form.before.toList = '@' :: "import ".toList) ∨
    ∃ name : Identifier, r.form.before.toList =
      '.' :: (name.text.toList ++ " \x7b background: ".toList) := by
  have hliteral : "@import ".toList = '@' :: "import ".toList := by decide
  cases r.form with
  | importText double => exact .inl ⟨rfl, hliteral⟩
  | importUrl quotes => exact .inl ⟨rfl, hliteral⟩
  | background name quotes => exact .inr ⟨name, by simp [StyleForm.before]⟩

theorem mem_quotes (q : Quotes) : ∀ ch ∈ q.text.toList, ch ∈ ['"', '\''] := by
  cases q <;> decide

theorem mem_call (r : StyleRule) : ∀ ch ∈ r.form.call.toList, ch ∈ ['u', 'r', 'l', '('] := by
  cases r.form <;> simp only [StyleForm.call] <;> decide

theorem mem_behind (r : StyleRule) : ∀ ch ∈ r.behind, ch ∈ ['"', '\'', ')', ';', ' ', '\x7d'] := by
  have hclosing : ∀ ch ∈ r.form.closing.toList, ch = ')' := by
    cases r.form <;> simp only [StyleForm.closing] <;> decide
  have hending : ∀ ch ∈ r.form.ending.toList, ch ∈ [';', ' ', '\x7d'] := by
    cases r.form <;> simp only [StyleForm.ending] <;> decide
  intro ch h
  simp only [behind, List.mem_append] at h
  rcases h with h | h | h
  · exact List.mem_append_left [')', ';', ' ', '\x7d'] (mem_quotes _ ch h)
  · simp [hclosing ch h]
  · exact List.mem_append_right ['"', '\'', ')'] (hending ch h)

/-- No import rule begins in or behind a reference: it would need a blank after its word. -/
theorem not_import_behind (hending : LineEnd ending rest)
    (h : r.reference.text.toList ++ (r.behind ++ ending) = a ++ b) (hb : b ≠ [])
    (hc : c.rest = b ++ rest) (hm : styleImport c ≠ []) : False := by
  obtain ⟨ch, others, hrest, hblank⟩ := styleImport_begins hm
  rw [hc] at hrest
  rcases List.append_eq_append_iff.1 h with ⟨between, rfl, hbehind⟩ | ⟨between, hfront, rfl⟩
  · -- behind the reference there is no at sign
    have hfirst : '@' ∈ r.behind ++ ending := by
      obtain ⟨x, b, rfl⟩ := List.exists_cons_of_ne_nil hb
      obtain rfl : x = '@' := by
        have hhead := congrArg List.head? hrest
        simpa using hhead
      simp [hbehind]
    rcases List.mem_append.1 hfirst with h | h
    · exact absurd (r.mem_behind _ h) (by decide)
    · cases hending with
      | text => cases h
      | lineBreak => exact absurd h (by decide)
  · -- what follows the word would be what follows the reference
    obtain ⟨y, others', hy, hmark, hy_blank⟩ := r.exists_behind
    have hbetween : ∀ ch ∈ between, (isMarkOrBracket ch || Text.isBlank ch) = false := by
      intro ch hch
      have hbare := r.reference.bare ch (by simp [hfront, hch])
      rw [isBlank_of_isBare hbare, isMarkOrBracket_of_isBare hbare, Bool.or_false]
    rw [hy, List.append_assoc] at hrest
    have hch := (append_cons_inj hbetween (by decide) (by simp [hmark]) (by simp [hblank])
      hrest).2.1
    rw [← hch, hy_blank] at hblank
    cases hblank

/-- Before the reference only an import rule has an at sign, as its first character. -/
theorem eq_nil_of_lead (h : r.lead = a ++ '@' :: b) : r.form.isImport = true ∧ a = [] := by
  have hbehind : '@' ∉ r.form.call.toList ++ r.form.quotes.text.toList := by
    rw [List.mem_append]
    rintro (hat | hat)
    · exact absurd (r.mem_call _ hat) (by decide)
    · exact absurd (mem_quotes _ _ hat) (by decide)
  rw [lead] at h
  rcases r.before_cases with ⟨himport, hbefore⟩ | ⟨name, hbefore⟩
  · cases a with
    | nil => exact ⟨himport, rfl⟩
    | cons x a =>
      have htail : "import ".toList ++ (r.form.call.toList ++ r.form.quotes.text.toList) =
          a ++ '@' :: b := by
        rw [hbefore] at h
        exact (List.cons.inj h).2
      have hat : '@' ∈ "import ".toList ++ (r.form.call.toList ++ r.form.quotes.text.toList) := by
        rw [htail]
        simp
      rcases List.mem_append.1 hat with hat | hat
      · exact absurd hat (by decide)
      · exact (hbehind hat).elim
  · have hat : '@' ∈ ('.' :: (name.text.toList ++ " \x7b background: ".toList)) ++
        (r.form.call.toList ++ r.form.quotes.text.toList) := by
      rw [← hbefore, h]
      simp
    simp only [List.cons_append, List.append_assoc, List.mem_cons, List.mem_append] at hat
    rcases hat with hat | hat | hat | hat
    · exact absurd hat (by decide)
    · exact absurd (name.ascii _ hat) (by decide)
    · exact absurd hat (by decide)
    · exact (hbehind (List.mem_append.2 hat)).elim

/-- An import rule is found only where the line is one, as a whole. -/
theorem import_begins (hending : LineEnd ending rest) (h : r.line.toList ++ ending = a ++ b)
    (hb : b ≠ []) (hm : styleImport (c.past a (b ++ rest)) ≠ []) :
    r.form.isImport = true ∧ a = [] := by
  obtain ⟨ch, others, hrest, -⟩ := styleImport_begins hm
  replace hrest : b ++ rest = "@import".toList ++ ch :: others := hrest
  obtain ⟨x, b, rfl⟩ := List.exists_cons_of_ne_nil hb
  obtain rfl : x = '@' := by
    have hhead := congrArg List.head? hrest
    simpa using hhead
  rw [toList_line, List.append_assoc, List.append_assoc] at h
  rcases List.append_eq_append_iff.1 h with ⟨between, rfl, hbehind⟩ | ⟨between, hlead, hbehind⟩
  · exact (not_import_behind hending hbehind hb rfl hm).elim
  · cases between with
    | nil => exact (not_import_behind (a := []) hending hbehind.symm hb rfl hm).elim
    | cons y between =>
      obtain ⟨rfl, -⟩ := List.cons.inj hbehind
      exact eq_nil_of_lead hlead

theorem call_cases (r : StyleRule) :
    r.form.call.toList = [] ∨ r.form.call.toList = "url".toList ++ ['('] := by
  have hcall : "url(".toList = "url".toList ++ ['('] := by decide
  cases r.form with
  | importText double => exact .inl rfl
  | importUrl quotes => exact .inr hcall
  | background name quotes => exact .inr hcall

theorem avoids_bracket_before (r : StyleRule) :
    ∀ ch ∈ r.form.before.toList, isBracketOrBreak ch = false := by
  rcases r.before_cases with ⟨-, hbefore⟩ | ⟨name, hbefore⟩
  · rw [hbefore]
    decide
  · rw [hbefore, List.forall_mem_cons, List.forall_mem_append]
    refine ⟨by decide, fun ch hch => ?_, by decide⟩
    exact isBracketOrBreak_eq_false_of (by decide) (by decide) (name.ascii ch hch)

theorem avoids_bracket_behind (r : StyleRule) :
    ∀ ch ∈ r.form.quotes.text.toList ++ (r.reference.text.toList ++ r.behind),
      isBracketOrBreak ch = false := by
  have hbare : ∀ ch, isBare ch = true → isBracketOrBreak ch = false :=
    fun _ => isBracketOrBreak_eq_false_of (by decide) (by decide)
  have hquotes : ∀ ch ∈ ['"', '\''], isBracketOrBreak ch = false := by decide
  have hliteral : ∀ ch ∈ ['"', '\'', ')', ';', ' ', '\x7d'], isBracketOrBreak ch = false := by
    decide
  simp only [List.forall_mem_append]
  exact ⟨fun ch hch => hquotes ch (mem_quotes _ ch hch),
    fun ch hch => hbare ch (r.reference.bare ch hch),
    fun ch hch => hliteral ch (r.mem_behind ch hch)⟩

/-- A call is found only where the line has one. -/
theorem url_begins (hending : LineEnd ending rest) (h : r.line.toList ++ ending = a ++ b)
    (hb : b ≠ []) (hm : styleUrl (c.past a (b ++ rest)) ≠ []) :
    r.form.call.toList ≠ [] ∧ r.form.before.toList = a := by
  obtain ⟨others, hurl⟩ := styleUrl_begins hm
  replace hurl : b ++ rest = "url".toList ++ '(' :: others := hurl
  have hline : r.line.toList = r.form.before.toList ++ (r.form.call.toList ++
      (r.form.quotes.text.toList ++ (r.reference.text.toList ++ r.behind))) := by
    simp [toList_line, lead]
  rcases r.call_cases with hcall | hcall
  · -- a line without a call has no bracket
    have hall : ∀ ch ∈ r.line.toList, isBracketOrBreak ch = false := by
      rw [hline, hcall, List.nil_append, List.forall_mem_append]
      exact ⟨r.avoids_bracket_before, r.avoids_bracket_behind⟩
    exact (not_url_of_avoids hall hending h hb hurl).elim
  · -- the first bracket of the line is that of the call
    have hfront : ∀ ch ∈ r.form.before.toList ++ "url".toList, isBracketOrBreak ch = false :=
      List.forall_mem_append.2 ⟨r.avoids_bracket_before, by decide⟩
    have hparts : (r.form.before.toList ++ "url".toList) ++ ('(' ::
        (r.form.quotes.text.toList ++ (r.reference.text.toList ++ r.behind)) ++ ending) =
        a ++ b := by
      rw [← h, hline, hcall]
      simp
    refine ⟨by simp [hcall], ?_⟩
    rcases List.append_eq_append_iff.1 hparts with ⟨between, rfl, hbehind⟩ | ⟨between, hlead, rfl⟩
    · -- behind the bracket of the call there is no other one
      cases between with
      | nil =>
        have hhead := congrArg List.head? hurl
        rw [← show _ = b from hbehind] at hhead
        simp at hhead
      | cons x between =>
        obtain ⟨-, htail⟩ := List.cons.inj hbehind
        exact (not_url_of_avoids r.avoids_bracket_behind hending htail hb hurl).elim
    · have hbetween : ∀ ch ∈ between, isBracketOrBreak ch = false :=
        fun ch hch => hfront ch (hlead ▸ List.mem_append_right a hch)
      rw [List.append_assoc] at hurl
      obtain ⟨rfl, -, -⟩ := append_cons_inj hbetween (by decide) (by decide) (by decide) hurl
      exact List.append_cancel_right hlead

/-! ## What is found on a line -/

/-- The place at which the reference begins, and the reference. -/
def captured (r : StyleRule) (index : Nat) : Option (Nat × List Char) :=
  some (index + r.lead.length, r.reference.text.toList)

/-- The match of an import rule. -/
def importFound (r : StyleRule) (index : Nat) : Found :=
  ⟨index, index + r.line.toList.length, r.captured index⟩

/-- A call with its reference. -/
def callText (r : StyleRule) : List Char :=
  r.form.call.toList ++ (r.form.quotes.text.toList ++ (r.reference.text.toList ++
    (r.form.quotes.text.toList ++ r.form.closing.toList)))

/-- The match of a call. -/
def callFound (r : StyleRule) (index : Nat) : Found :=
  ⟨index + r.form.before.toList.length,
    index + r.form.before.toList.length + r.callText.length, r.captured index⟩

theorem line_eq (r : StyleRule) : r.line.toList =
    r.form.before.toList ++ (r.callText ++ r.form.ending.toList) := by
  simp [toList_line, lead, behind, callText]

theorem prefers_import (himport : r.form.isImport = true)
    (hrest : c.rest = r.line.toList ++ rest) :
    Prefers styleImport c (c.capturing r.lead r.reference.text.toList r.behind rest) := by
  have hbefore : r.form.before.toList = "@import".toList ++ [' '] := by
    have hliteral : "@import ".toList = "@import".toList ++ [' '] := by decide
    cases hform : r.form with
    | importText double => exact hliteral
    | importUrl quotes => exact hliteral
    | background name quotes => simp [hform, StyleForm.isImport] at himport
  have hend : r.form.ending.toList = [';'] := by
    have hliteral : ";".toList = [';'] := by decide
    cases hform : r.form with
    | importText double => exact hliteral
    | importUrl quotes => exact hliteral
    | background name quotes => simp [hform, StyleForm.isImport] at himport
  rw [lead, behind, hbefore, hend, List.append_assoc]
  refine prefers_styleImport r.isCall r.isQuotes quoted r.nonempty r.reference.bare ?_
  simp [hrest, toList_line, lead, behind, hbefore, hend]

theorem prefers_callText (hcall : r.form.call.toList ≠ []) (hrest : c.rest = r.callText ++ rest) :
    Prefers styleUrl c (c.capturing (r.form.call.toList ++ r.form.quotes.text.toList)
      r.reference.text.toList (r.form.quotes.text.toList ++ r.form.closing.toList) rest) := by
  have hurl : r.form.call.toList = "url(".toList := by
    rw [r.call_cases.resolve_left hcall]
    decide
  have hclosing := r.isCall.eq_nil_or.resolve_left hcall
  rw [hurl, hclosing]
  refine prefers_styleUrl r.isQuotes r.nonempty r.reference.bare ?_
  simp [hrest, callText, hurl, hclosing]

/-- What is found of an import rule on a line. -/
theorem found_import_line (hc : c.AtLine) (hending : LineEnd ending rest)
    (hrest : c.rest = r.line.toList ++ ending ++ rest) :
    found styleImport c = (if r.form.isImport then some (r.importFound c.index) else none).toList ++
      found styleImport (c.past (r.line.toList ++ ending) rest) := by
  have hbegins : ∀ a b, r.line.toList ++ ending = a ++ b → b ≠ [] →
      styleImport (c.past a (b ++ rest)) ≠ [] → r.form.isImport = true ∧ a = [] :=
    fun a b h hb hne => import_begins hending h hb hne
  split
  · next himport =>
    have hne : r.line.toList ≠ [] := by simp [toList_line, r.nonempty]
    have hmatch := prefers_import (c := c.past [] (r.line.toList ++ (ending ++ rest))) himport rfl
    rw [← List.nil_append (r.line.toList ++ ending)] at hrest
    have hone := found_of_one hc.toFresh hrest hne
      (fun a b h hb hne => (hbegins a b h hb hne).2) hmatch
      (by simp [Cursor.capturing, Cursor.past, toList_line])
    rw [List.nil_append] at hone
    rw [hone]
    simp [importFound, captured, Cursor.capturing, Cursor.past, toList_line]
  · next himport =>
    refine found_of_unmatched hc.toFresh hrest ?_
    intro a b h hb
    by_contra hne
    exact himport (hbegins a b h hb hne).1

/-- What is found of a call on a line. -/
theorem found_call_line (hc : c.AtLine) (hending : LineEnd ending rest)
    (hrest : c.rest = r.line.toList ++ ending ++ rest) :
    found styleUrl c =
      (if r.form.call.toList ≠ [] then some (r.callFound c.index) else none).toList ++
        found styleUrl (c.past (r.line.toList ++ ending) rest) := by
  have hbegins : ∀ a b, r.line.toList ++ ending = a ++ b → b ≠ [] →
      styleUrl (c.past a (b ++ rest)) ≠ [] →
        r.form.call.toList ≠ [] ∧ r.form.before.toList = a :=
    fun a b h hb hne => url_begins hending h hb hne
  split
  · next hcall =>
    have hne : r.callText ≠ [] := by simp [callText, r.nonempty]
    have hline : r.line.toList ++ ending = r.form.before.toList ++ (r.callText ++
        (r.form.ending.toList ++ ending)) := by
      simp [line_eq]
    have hmatch := prefers_callText (c := c.past r.form.before.toList (r.callText ++
      (r.form.ending.toList ++ ending ++ rest))) hcall rfl
    rw [hline] at hrest hbegins ⊢
    rw [found_of_one hc.toFresh hrest hne (fun a b h hb hne => (hbegins a b h hb hne).2.symm) hmatch
      (by simp [Cursor.capturing, Cursor.past, callText, Nat.add_assoc])]
    simp [callFound, captured, lead, callText, Cursor.capturing, Cursor.past, Nat.add_assoc]
  · next hcall =>
    refine found_of_unmatched hc.toFresh hrest ?_
    intro a b h hb
    by_contra hne
    exact hcall (hbegins a b h hb hne).1

/-! ## What is found in a sheet -/

/-- What the rule refers to, with the place of the reference in the text. -/
def placed (p : Nat × StyleRule) : Placed := (p.1 + p.2.lead.length, p.2.edge)

/-- The rules with the places at which their lines begin. -/
def sheet (rules : List StyleRule) : List (Nat × StyleRule) :=
  starts (fun r : StyleRule => r.line.toList) 0 rules

variable {rules : List StyleRule} {text : List Char} {p q : Nat × StyleRule}

theorem call_ne_nil {r : StyleRule} (h : r.form.isImport = false) : r.form.call.toList ≠ [] := by
  cases hform : r.form with
  | background name quotes => simp [StyleForm.call]
  | _ => simp [hform, StyleForm.isImport] at h

theorem findAll_styleImport (h : InLines (rules.map fun r => r.line.toList) text) :
    findAll styleImport text = (sheet rules).filterMap fun p =>
      if p.2.form.isImport then some (p.2.importFound p.1) else none :=
  findAll_inLines h fun _ _ _ _ _ hc hending hrest => found_import_line hc hending hrest

theorem findAll_styleUrl (h : InLines (rules.map fun r => r.line.toList) text) :
    findAll styleUrl text = (sheet rules).filterMap fun p =>
      if p.2.form.call.toList ≠ [] then some (p.2.callFound p.1) else none :=
  findAll_inLines h fun _ _ _ _ _ hc hending hrest => found_call_line hc hending hrest

/-- The reference stands within the line of its rule. -/
theorem lead_length_lt (r : StyleRule) : r.lead.length < r.line.toList.length := by
  have hpos := List.length_pos_iff.2 r.nonempty
  simp only [toList_line, List.length_append]
  omega

/-- A reference stands within an import rule exactly when it is that of the rule. -/
theorem any_styleImport (h : InLines (rules.map fun r => r.line.toList) text)
    (hp : p ∈ sheet rules) :
    ((findAll styleImport text).any fun f =>
      f.start ≤ p.1 + p.2.lead.length && p.1 + p.2.lead.length < f.stop) = p.2.form.isImport := by
  have hlead := p.2.lead_length_lt
  rw [Bool.eq_iff_iff, List.any_eq_true, findAll_styleImport h]
  simp only [List.mem_filterMap, Bool.and_eq_true, decide_eq_true_eq]
  constructor
  · rintro ⟨f, ⟨q, hq, hf⟩, hstart, hstop⟩
    split at hf
    · next himport =>
      obtain rfl := Option.some.inj hf
      simp only [importFound] at hstart hstop
      rwa [eq_of_overlap hp hq (by omega) (by omega)]
    · cases hf
  · intro himport
    refine ⟨p.2.importFound p.1, ⟨p, hp, if_pos himport⟩, ?_⟩
    simp only [importFound]
    omega

/-- The rules that refer to a file of the project, with their places. -/
def localRules (rules : List StyleRule) : List (Nat × StyleRule) :=
  (sheet rules).filter fun p => !p.2.reference.isRemote

theorem map_placed_filter (wanted : StyleRule → Bool) :
    ((localRules rules).filter fun p => wanted p.2).map placed = (sheet rules).filterMap fun p =>
      if wanted p.2 && !p.2.reference.isRemote then some (placed p) else none := by
  rw [localRules, List.filter_filter, ← List.filterMap_eq_map, List.filterMap_filter]
  rfl

/-- References stand in the order of their rules. -/
theorem pairwise_placed_sheet (rules : List StyleRule) :
    ((sheet rules).map placed).Pairwise fun a b => a.1 < b.1 := by
  refine List.pairwise_map.2 ((pairwise_starts _ 0 rules).imp ?_)
  intro p q h
  have hlead := p.2.lead_length_lt
  show p.1 + p.2.lead.length < q.1 + q.2.lead.length
  omega

theorem map_edge_localRules (rules : List StyleRule) :
    ((localRules rules).map placed).map Prod.snd =
      (rules.filter fun r => !r.reference.isRemote).map edge := by
  conv_rhs => rw [← map_snd_starts (fun r : StyleRule => r.line.toList) 0 rules]
  rw [List.filter_map, List.map_map, List.map_map]
  rfl

/-- The imports of a style sheet that consists of rules, each on a line of its own, are what the
rules refer to, in their order, apart from what is not a file of the project; what an earlier rule
refers to in the same way is left out. -/
theorem styleImports_rules {rules : List StyleRule} {source : String}
    (h : InLines (rules.map fun r => r.line.toList) source.toList) :
    styleImports source = ((rules.filter fun r => !r.reference.isRemote).map edge).eraseDups := by
  have hperm := (List.filter_append_perm (fun p => p.2.form.isImport) (localRules rules)).map placed
  rw [List.map_append] at hperm
  have hpairwise := (pairwise_placed_sheet rules).sublist
    (List.filter_sublist (p := fun p => !p.2.reference.isRemote) |>.map placed)
  have hresolved : ∀ a ∈ (localRules rules).map placed, a.2.resolved = none := by
    intro a ha
    obtain ⟨p, -, rfl⟩ := List.mem_map.1 ha
    rfl
  rw [← map_edge_localRules]
  -- import rules are found by the one search, and the other rules by the other one
  refine inTextOrder_of_perm (.trans (.of_eq (congrArg₂ (· ++ ·) ?_ ?_)) hperm) hpairwise hresolved
  · rw [findAll_styleImport h, List.filterMap_filterMap,
      map_placed_filter fun r => r.form.isImport]
    refine List.filterMap_congr fun p _ => ?_
    cases himport : p.2.form.isImport with
    | false => rfl
    | true => simp [importFound, captured, placed, edge, himport]
  · rw [findAll_styleUrl h, List.filterMap_filterMap, map_placed_filter fun r => !r.form.isImport]
    refine List.filterMap_congr fun p hp => ?_
    have hrule := any_styleImport h hp
    cases himport : p.2.form.isImport with
    | false =>
      rw [himport] at hrule
      rw [if_pos (call_ne_nil himport)]
      simp only [callFound, captured, Option.bind_some, String.ofList_toList, hrule]
      simp [placed, edge, himport]
    | true =>
      -- what stands in an import rule is not counted again
      rw [himport] at hrule
      split
      · simp only [callFound, captured, Option.bind_some, hrule]
        simp
      · rfl

def mixedRules : List StyleRule := [
  ⟨.importUrl .double, ⟨"./base.css", by decide, by decide⟩⟩,
  ⟨.background ⟨"c", by decide, by decide⟩ .none, ⟨"./a.png", by decide, by decide⟩⟩,
  ⟨.importText false, ⟨"//host/b.css", by decide, by decide⟩⟩,
  ⟨.background ⟨"d", by decide, by decide⟩ .single,
    ⟨"./base.css", by decide, by decide⟩⟩,
  ⟨.importText true, ⟨"./base.css", by decide, by decide⟩⟩]

def mixedSheet : String := "\n".intercalate
  ["@import url(\"./base.css\");", ".c \x7b background: url(./a.png); \x7d",
    "@import '//host/b.css';", ".d \x7b background: url('./base.css'); \x7d", "@import \"./base.css\";"]

/-- A reference on another host, and one that is used in two ways and once more. -/
theorem styleImports_rules_mixed :
    InLines (mixedRules.map fun r => r.line.toList) mixedSheet.toList ∧
    styleImports mixedSheet =
      [⟨"./base.css", .static, none⟩, ⟨"./a.png", .url, none⟩, ⟨"./base.css", .url, none⟩] := by
  have hsheet : mixedSheet = "\n".intercalate (mixedRules.map line) := by decide
  have hlines : InLines (mixedRules.map fun r => r.line.toList) mixedSheet.toList := by
    have hjoined := inLines_intercalate (mixedRules.map line)
    rwa [List.map_map, ← hsheet] at hjoined
  refine ⟨hlines, ?_⟩
  rw [styleImports_rules hlines]
  decide

end StyleRule

end Bindery.Scan
