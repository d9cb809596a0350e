import Bindery.Proofs.Scan.Lines

/-!
# Quotations

Each form of import that is searched for in a script is a quotation: the specifier stands between
quotation marks, with a text of one language before and one of another behind. In most forms what stands
before has no quotation mark of its own, so that the first one of the text is that of the specifier. Only
the list of names of an export statement can hold anything but its closing brace.

* `Search` : the forms.
* `Search.mem_matcher_iff` : a match is a quotation.
* `exportHeads_cases`, `avoids_importHeads`, `avoids_callHeads` : what stands before.
* `not_quotation_of_mark` : where there is but one quotation mark left on a line.
-/

namespace Bindery.Scan

variable {c e : Cursor} {rest : List Char}

/-! ## Quotation marks -/

def isQuoteMark (c : Char) : Bool := c = '"' || c = '\''

/-- A class without the quotation marks has no quotation mark. -/
theorem isQuoteMark_eq_false_of {p : Char → Bool} {ch : Char} (hdouble : p '"' = false)
    (hsingle : p '\'' = false) (h : p ch = true) : isQuoteMark ch = false := by
  rw [Bool.eq_false_iff]
  intro hmark
  simp only [isQuoteMark, Bool.or_eq_true, decide_eq_true_eq] at hmark
  rcases hmark with rfl | rfl
  · simp [hdouble] at h
  · simp [hsingle] at h

/-- A character of a specifier. -/
def isPlain (c : Char) : Bool := c != '"' && c != '\'' && c != '\n'

theorem reads_quoteMark : Reads quoteMark (ofClass isQuoteMark) := reads_oneOf _

theorem reads_plain : Reads (run1 isPlain) (ofClass isPlain * runsOf isPlain) := reads_run1 _

/-! ## The forms -/

/-- The forms of imports that are searched for in a script. -/
inductive Search where
  | imported
  | exported
  | called
  | required
  deriving DecidableEq, Repr

namespace Search

def matcher : Search → Matcher
  | imported => importStatement
  | exported => exportStatement
  | called => callOf "import"
  | required => callOf "require"

def kind : Search → ImportKind
  | imported => .static
  | exported => .reExport
  | called => .dynamic
  | required => .static

/-- The word `type` and blanks, or nothing. -/
def TypeWord : Language Char := {"type".toList} * Separator + 1

/-- What an export statement takes over. -/
def ExportClause : Language Char :=
  {['*']} * (Separator * ({"as".toList} * (Separator *
    (ofClass isNameChar * runsOf isNameChar))) + 1) +
  {['\x7b']} * (runsOf (· != '\x7d') * {['\x7d']})

/-- What stands before the quotation mark. -/
def heads : Search → Language Char
  | imported => Spaces * ({"import".toList} * (Separator * (TypeWord *
      ((ofClass isClauseChar * runsOf isClauseChar) *
        (Separator * ({"from".toList} * Separator)) + 1))))
  | exported => Spaces * ({"export".toList} * (Separator * (TypeWord * (ExportClause *
      (Separator * ({"from".toList} * Separator))))))
  | called => {"import".toList} * ({['(']} * Spaces)
  | required => {"require".toList} * ({['(']} * Spaces)

/-- What stands behind the second quotation mark. -/
def closings : Search → Language Char
  | imported => 1
  | exported => 1
  | called => Spaces * {[')']}
  | required => Spaces * {[')']}

/-- Whether a match can begin at the place: a statement begins with the line, and the name of what
is called is a word of its own. -/
def Admits : Search → Cursor → Prop
  | imported, c => c.before = none ∨ c.before = some '\n'
  | exported, c => c.before = none ∨ c.before = some '\n'
  | called, c => c.IsEdge
  | required, c => c.IsEdge

theorem reads_typeWord : Reads typeWord TypeWord := ((reads_word _).andThen reads_blanks1).optional

theorem reads_exportClause : Reads exportClause ExportClause :=
  ((reads_word _).andThen (reads_blanks1.andThen ((reads_word _).andThen
    (reads_blanks1.andThen (reads_run1 _)))).optional).orElse
    ((reads_word _).andThen ((reads_run _).andThen (reads_word _)))

end Search

/-- How a text begins with a quotation, between a text of one language and one of another. -/
structure Quotation (heads closings : Language Char) (text : List Char) where
  head : List Char
  mark : Char
  specifier : List Char
  mark' : Char
  closing : List Char
  rest : List Char
  text_eq : text = head ++ mark :: (specifier ++ mark' :: (closing ++ rest))
  head_mem : head ∈ heads
  closing_mem : closing ∈ closings
  isMark : isQuoteMark mark = true
  isMark' : isQuoteMark mark' = true
  nonempty : specifier ≠ []
  plain : ∀ ch ∈ specifier, isPlain ch = true

namespace Quotation

variable {heads closings : Language Char} {text : List Char}

/-- The place behind the quotation. -/
def stop (q : Quotation heads closings text) (c : Cursor) : Cursor :=
  c.capturing (q.head ++ [q.mark]) q.specifier ([q.mark'] ++ q.closing) q.rest

/-- A quoted text behind one text and before another. -/
theorem mem_andThen_quoted {first last : Matcher} (hfirst : Reads first heads)
    (hlast : Reads last closings) : e ∈ andThen first (andThen quoted last) c ↔
      ∃ q : Quotation heads closings c.rest, e = q.stop c := by
  -- grouped around what is captured
  have hparts : andThen first (andThen quoted last) = andThen (andThen first quoteMark)
      (andThen (capture (run1 isPlain)) (andThen quoteMark last)) := by
    simp only [quoted, inOrder, andThen_assoc]
    rfl
  rw [hparts, mem_captured_iff (hfirst.andThen reads_quoteMark) reads_plain
    (reads_quoteMark.andThen hlast)]
  constructor
  · rintro @⟨_, specifier, _, rest, hrest, ⟨head, hhead, _, ⟨mark, hmark, rfl⟩, rfl⟩, hmiddle,
      _, ⟨mark', hmark', rfl⟩, closing, hclosing, rfl⟩
    obtain ⟨hne, hplain⟩ := mem_run1.1 hmiddle
    exact ⟨⟨head, mark, specifier, mark', closing, rest, by simpa using hrest, hhead, hclosing, hmark,
      hmark', hne, hplain⟩, rfl⟩
  · rintro ⟨q, rfl⟩
    have hrest : c.rest =
        (q.head ++ [q.mark]) ++ (q.specifier ++ (([q.mark'] ++ q.closing) ++ q.rest)) := by
      simpa using q.text_eq
    have hhead : q.head ++ [q.mark] ∈ heads * ofClass isQuoteMark :=
      ⟨q.head, q.head_mem, _, ⟨q.mark, q.isMark, rfl⟩, rfl⟩
    have hclosing : [q.mark'] ++ q.closing ∈ ofClass isQuoteMark * closings :=
      ⟨_, ⟨q.mark', q.isMark', rfl⟩, q.closing, q.closing_mem, rfl⟩
    exact Captured.of hrest hhead (mem_run1.2 ⟨q.nonempty, q.plain⟩) hclosing

theorem mem_andThen_quoted_last {first : Matcher} (hfirst : Reads first heads) :
    e ∈ andThen first quoted c ↔ ∃ q : Quotation heads 1 c.rest, e = q.stop c := by
  have hlast : quoted = andThen quoted fun c => [c] := by
    funext c
    simp [andThen]
  rw [hlast]
  exact mem_andThen_quoted hfirst reads_nothing

theorem isQuoteMark_eq_false {ch : Char} (h : isPlain ch = true) : isQuoteMark ch = false :=
  isQuoteMark_eq_false_of (by decide) (by decide) h

/-- The first quotation mark of a text is that of the quotation, where nothing that stands before has
one. -/
theorem eq_of_avoids (q : Quotation heads closings text) {lead others : List Char} {mark : Char}
    (hhead : ∀ ch ∈ q.head, isQuoteMark ch = false) (hlead : ∀ ch ∈ lead, isQuoteMark ch = false)
    (hmark : isQuoteMark mark = true) (htext : text = lead ++ mark :: others) :
    q.head = lead ∧ q.mark = mark ∧
      q.specifier ++ q.mark' :: (q.closing ++ q.rest) = others :=
  append_cons_inj hhead hlead q.isMark hmark (q.text_eq.symm.trans htext)

theorem specifier_eq (q : Quotation heads closings text) {specifier others : List Char}
    {mark : Char} (hplain : ∀ ch ∈ specifier, isPlain ch = true) (hmark : isQuoteMark mark = true)
    (h : q.specifier ++ q.mark' :: (q.closing ++ q.rest) = specifier ++ mark :: others) :
    q.specifier = specifier ∧ q.mark' = mark ∧ q.closing ++ q.rest = others :=
  append_cons_inj (fun ch hch => isQuoteMark_eq_false (q.plain ch hch))
    (fun ch hch => isQuoteMark_eq_false (hplain ch hch)) q.isMark' hmark h

end Quotation

namespace Search

theorem mem_callOf_iff {name : String} : e ∈ callOf name c ↔ c.IsEdge ∧
    ∃ q : Quotation ({name.toList} * ({['(']} * Spaces)) (Spaces * {[')']}) c.rest,
      e = q.stop c := by
  have hparts : callOf name = andThen wordEdge
      (andThen (inOrder [word name.toList, word ['('], blanks])
        (andThen quoted (inOrder [blanks, word [')']]))) := by
    simp only [callOf, inOrder, andThen_assoc]
  rw [hparts, mem_andThen_wordEdge]
  exact and_congr_right fun _ => Quotation.mem_andThen_quoted
    ((reads_word _).andThen ((reads_word _).andThen reads_blanks))
    (reads_blanks.andThen (reads_word _))

/-- A match of a form is a quotation, at a place that admits it. -/
theorem mem_matcher_iff (k : Search) : e ∈ k.matcher c ↔ k.Admits c ∧
    ∃ q : Quotation k.heads k.closings c.rest, e = q.stop c := by
  cases k with
  | called => exact mem_callOf_iff
  | required => exact mem_callOf_iff
  | imported =>
    have hparts : importStatement = andThen lineStart (andThen (inOrder [blanks,
        word "import".toList, blanks1, typeWord, optional (inOrder [lazyRun1 isClauseChar, blanks1,
          word "from".toList, blanks1])]) quoted) := by
      simp only [importStatement, inOrder, andThen_assoc]
    rw [matcher, hparts, mem_andThen_lineStart]
    exact and_congr_right fun _ => Quotation.mem_andThen_quoted_last
      (reads_blanks.andThen ((reads_word _).andThen (reads_blanks1.andThen (reads_typeWord.andThen
        ((reads_lazyRun1 _).andThen (reads_blanks1.andThen
          ((reads_word _).andThen reads_blanks1))).optional))))
  | exported =>
    have hparts : exportStatement = andThen lineStart (andThen (inOrder [blanks,
        word "export".toList, blanks1, typeWord, exportClause, blanks1, word "from".toList,
        blanks1]) quoted) := by
      simp only [exportStatement, inOrder, andThen_assoc]
    rw [matcher, hparts, mem_andThen_lineStart]
    exact and_congr_right fun _ => Quotation.mem_andThen_quoted_last
      (reads_blanks.andThen ((reads_word _).andThen (reads_blanks1.andThen (reads_typeWord.andThen
        (reads_exportClause.andThen (reads_blanks1.andThen
          ((reads_word _).andThen reads_blanks1)))))))

end Search

/-! ## What stands before the quotation mark -/

theorem avoids_typeWord {p : Char → Bool} (h : ∀ ch, Text.isBlank ch = true → p ch = false)
    (hword : ∀ ch ∈ "type".toList, p ch = false) : Avoids p Search.TypeWord :=
  ((Avoids.word hword).mul (avoids_separator h)).add Avoids.one

theorem avoids_importHeads : Avoids isQuoteMark (Search.heads .imported) := by
  have hblank : ∀ ch, Text.isBlank ch = true → isQuoteMark ch = false :=
    fun ch => isQuoteMark_eq_false_of (by decide) (by decide)
  have hclause : ∀ ch, isClauseChar ch = true → isQuoteMark ch = false :=
    fun ch => isQuoteMark_eq_false_of (by decide) (by decide)
  have hfrom : Avoids isQuoteMark (Separator * ({"from".toList} * Separator)) :=
    (avoids_separator hblank).mul ((Avoids.word (by decide)).mul (avoids_separator hblank))
  exact (Avoids.runsOf hblank).mul ((Avoids.word (by decide)).mul
    ((avoids_separator hblank).mul ((avoids_typeWord hblank (by decide)).mul
      (((Avoids.run1 hclause).mul hfrom).add Avoids.one))))

/-- A quotation mark or a brace. -/
def isMarkOrBrace (ch : Char) : Bool := isQuoteMark ch || ch == '\x7b' || ch == '\x7d'

/-- What an export statement begins with has no quotation mark, but between braces it can have. -/
theorem exportHeads_cases {head : List Char} (h : head ∈ Search.heads .exported) :
    (∀ ch ∈ head, isQuoteMark ch = false) ∨ ∃ first body last,
      head = first ++ '\x7b' :: (body ++ '\x7d' :: last) ∧
      (∀ ch ∈ first, isMarkOrBrace ch = false) ∧ (∀ ch ∈ body, (ch == '\x7d') = false) ∧
      ∀ ch ∈ last, isQuoteMark ch = false := by
  have hblank : ∀ ch, Text.isBlank ch = true → isMarkOrBrace ch = false := by
    intro ch hch
    rw [Bool.eq_false_iff]
    intro hmark
    simp only [isMarkOrBrace, isQuoteMark, Bool.or_eq_true, decide_eq_true_eq, beq_iff_eq] at hmark
    rcases hmark with ((rfl | rfl) | rfl) | rfl <;> exact absurd hch (by decide)
  have hmark : ∀ {ch}, isMarkOrBrace ch = false → isQuoteMark ch = false := by
    intro ch hch
    simp only [isMarkOrBrace, Bool.or_eq_false_iff] at hch
    exact hch.1.1
  have hname : ∀ ch, isNameChar ch = true → isQuoteMark ch = false :=
    fun ch => isQuoteMark_eq_false_of (by decide) (by decide)
  -- neither the beginning nor the end has a mark; between them there is a list or a star
  have hfirsts : Avoids isMarkOrBrace
      (Spaces * ({"export".toList} * (Separator * Search.TypeWord))) :=
    (Avoids.runsOf hblank).mul ((Avoids.word (by decide)).mul
      ((avoids_separator hblank).mul (avoids_typeWord hblank (by decide))))
  have hseparator : Avoids isQuoteMark Separator :=
    avoids_separator fun ch hch => hmark (hblank ch hch)
  have hlasts : Avoids isQuoteMark (Separator * ({"from".toList} * Separator)) :=
    hseparator.mul ((Avoids.word (by decide)).mul hseparator)
  have hstar : Avoids isQuoteMark ({['*']} * (Separator * ({"as".toList} * (Separator *
      (ofClass isNameChar * runsOf isNameChar))) + 1)) :=
    (Avoids.word (by decide)).mul ((hseparator.mul ((Avoids.word (by decide)).mul
      (hseparator.mul (Avoids.run1 hname)))).add Avoids.one)
  have hparts : Search.heads .exported =
      (Spaces * ({"export".toList} * (Separator * Search.TypeWord))) *
        (Search.ExportClause * (Separator * ({"from".toList} * Separator))) := by
    simp only [Search.heads, mul_assoc]
  rw [hparts] at h
  obtain ⟨first, hfirst, _, ⟨clause, hclause, last, hlast, rfl⟩, rfl⟩ := h
  rcases hclause with hclause | ⟨_, rfl, _, ⟨body, hbody, _, rfl, rfl⟩, rfl⟩
  · left
    simp only [List.forall_mem_append]
    exact ⟨fun ch hch => hmark (hfirsts first hfirst ch hch), hstar clause hclause,
      hlasts last hlast⟩
  · right
    refine ⟨first, body, last, by simp, hfirsts first hfirst, ?_, hlasts last hlast⟩
    exact fun ch hch => beq_eq_false_iff_ne.2 (bne_iff_ne.1 (hbody ch hch))

theorem avoids_callHeads {name : String} (hname : name = "import" ∨ name = "require") :
    Avoids isQuoteMark ({name.toList} * ({['(']} * Spaces)) := by
  refine (Avoids.word ?_).mul ((Avoids.word (by decide)).mul (Avoids.runsOf ?_))
  · rcases hname with rfl | rfl <;> decide
  · exact fun ch => isQuoteMark_eq_false_of (by decide) (by decide)

/-- The first character of a statement that is searched for. -/
theorem head?_of_worded {w : List Char} {x : Char} {l closings : Language Char} {text : List Char}
    (q : Quotation (Spaces * ({w} * l)) closings text) (hw : w.head? = some x) :
    ∃ ch, text.head? = some ch ∧ (Text.isBlank ch = true ∨ ch = x) := by
  obtain ⟨blanks, hblanks, _, ⟨_, rfl, others, -, rfl⟩, hhead⟩ := q.head_mem
  rw [q.text_eq, ← hhead]
  cases blanks with
  | nil => exact ⟨x, by simp [List.head?_append, hw], .inr rfl⟩
  | cons ch r => exact ⟨ch, rfl, .inl (hblanks ch List.mem_cons_self)⟩

/-- The first character of a call. -/
theorem head?_of_call {name : String} (hname : name = "import" ∨ name = "require")
    {closings : Language Char} {text : List Char}
    (q : Quotation ({name.toList} * ({['(']} * Spaces)) closings text) :
    text.head? = some 'i' ∨ text.head? = some 'r' := by
  obtain ⟨_, rfl, others, -, hhead⟩ := q.head_mem
  rw [q.text_eq, ← hhead]
  rcases hname with rfl | rfl
  · left
    simp
  · right
    simp

/-- A call is found at the name of what is called, up to its bracket. -/
theorem call_eq {u a bl : List Char} {name callee : String}
    (hname : name = "import" ∨ name = "require") (hcallee : callee = "import" ∨ callee = "require")
    (hbl : bl ∈ Spaces) (h : u ++ (callee.toList ++ ['(']) = a ++ (name.toList ++ '(' :: bl)) :
    name = callee ∧ u = a := by
  -- both texts end in the bracket, and blanks do not
  obtain rfl : bl = [] := by
    rcases List.eq_nil_or_concat bl with rfl | ⟨bl, x, rfl⟩
    · rfl
    · simp only [List.concat_eq_append, ← List.append_assoc, ← List.cons_append] at h
      obtain rfl : '(' = x := List.singleton_inj.1 (List.append_inj' h rfl).2
      exact absurd (hbl '(' (by simp)) (by decide)
  simp only [← List.append_assoc] at h
  have hnames := (List.append_inj' h rfl).1
  have hlast := congrArg List.getLast? hnames
  rcases hname with rfl | rfl <;> rcases hcallee with rfl | rfl
  · exact ⟨rfl, List.append_cancel_right hnames⟩
  · simp [List.getLast?_append] at hlast
  · simp [List.getLast?_append] at hlast
  · exact ⟨rfl, List.append_cancel_right hnames⟩

/-- A quotation needs two marks on a line, and what is left of the line has one. -/
theorem not_quotation_of_mark {heads closings : Language Char} {text lead closing : List Char}
    {mark : Char} (hheads : Avoids isQuoteMark heads) (hending : LineEnd ending rest)
    (hlead : ∀ ch ∈ lead, isQuoteMark ch = false) (hmark : isQuoteMark mark = true)
    (hclosing : ∀ ch ∈ closing, isPlain ch = true)
    (htext : text = lead ++ mark :: (closing ++ (ending ++ rest)))
    (q : Quotation heads closings text) : False := by
  have hhead := hheads q.head q.head_mem
  obtain ⟨-, -, hspecifier⟩ := q.eq_of_avoids hhead hlead hmark htext
  have hmark' : isPlain q.mark' = false := by
    by_contra h
    rw [Bool.not_eq_false] at h
    simpa [q.isMark'] using Quotation.isQuoteMark_eq_false h
  -- the second mark would stand on what is left of the line, or be the line break
  cases hending with
  | text =>
    rw [List.append_nil, List.append_nil] at hspecifier
    have hmem : q.mark' ∈ closing := by simp [← hspecifier]
    simp [hclosing _ hmem] at hmark'
  | lineBreak =>
    have hbreak : q.mark' = '\n' := by
      refine (append_cons_inj (p := fun ch => !isPlain ch) ?_ ?_ ?_ ?_ hspecifier).2.1
      · exact fun ch hch => by simp [q.plain ch hch]
      · exact fun ch hch => by simp [hclosing ch hch]
      · simp [hmark']
      · decide
    exact absurd (hbreak ▸ q.isMark') (by decide)

end Bindery.Scan
