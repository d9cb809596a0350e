import Bindery.Proofs.Scan.Quotation

/-!
# The statements of a script

A script is made of statements that import something, each on a line of its own. What is found in it
are the imports of the statements, in their order. The specifier of a statement can hold anything but
quotation marks and line breaks, so also what another form of import begins with. No match begins there,
as it would need a second quotation mark on the same line.

* `Form`, `Statement` : how imports are written.
* `Statement.begins` : where a match begins.
* `Form.head_eq` : what a match takes before the quotation mark.
* `Statement.found_line` : what is found in one line.
* `Statement.scriptImports_statements` : what is found in a script.
-/

namespace Bindery.Scan

variable {c e : Cursor} {rest : List Char}

/-! ## Statements -/

structure Specifier where
  text : String
  nonempty : text ≠ ""
  plain : ∀ ch ∈ text.toList, isPlain ch = true

/-- The forms of statements that import something. -/
inductive Form where
  | importDefault (name : Identifier)
  | importNames (names : List Identifier)
  | importAll (name : Identifier)
  | importOnly
  | exportAll
  | exportNames (names : List Identifier)
  | importCall (name : Identifier)
  | requireCall (name : Identifier)

namespace Form

/-- Names, separated by commas. -/
def listed (names : List Identifier) : String := ", ".intercalate (names.map Identifier.text)

/-- What is searched for to find the statement. -/
def search : Form → Search
  | importDefault _ => .imported
  | importNames _ => .imported
  | importAll _ => .imported
  | importOnly => .imported
  | exportAll => .exported
  | exportNames _ => .exported
  | importCall _ => .called
  | requireCall _ => .required

/-- How the statement uses what it imports. -/
def kind : Form → ImportKind
  | exportAll => .reExport
  | exportNames _ => .reExport
  | importCall _ => .dynamic
  | _ => .static

theorem kind_search (f : Form) : f.search.kind = f.kind := by cases f <;> rfl

/-- What stands before the place at which the search finds it. -/
def opening : Form → String
  | importCall name => "const " ++ name.text ++ " = () => "
  | requireCall name => "const " ++ name.text ++ " = "
  | _ => ""

/-- What stands from there to the quotation mark. -/
def head : Form → String
  | importDefault name => "import " ++ name.text ++ " from "
  | importNames names => "import \x7b " ++ listed names ++ " \x7d from "
  | importAll name => "import * as " ++ name.text ++ " from "
  | importOnly => "import "
  | exportAll => "export * from "
  | exportNames names => "export \x7b " ++ listed names ++ " \x7d from "
  | importCall _ => "import("
  | requireCall _ => "require("

/-- What stands between the second quotation mark and the semicolon. -/
def closing : Form → String
  | importCall _ => ")"
  | requireCall _ => ")"
  | _ => ""

variable {ch : Char} {f : Form}

/-- A character of a statement that is not a call, before the quotation mark. -/
def isWordy (ch : Char) : Bool :=
  isIdentifierChar ch || [' ', ',', '*', '\x7b', '\x7d'].contains ch

theorem isWordy_of_mem {name : Identifier} (h : ch ∈ name.text.toList) : isWordy ch = true := by
  simp [isWordy, name.ascii ch h]

theorem isWordy_of_mem_listed {names : List Identifier} (h : ch ∈ (listed names).toList) :
    isWordy ch = true ∧ ch ≠ '\x7d' := by
  rw [listed, String.toList_intercalate] at h
  induction names with
  | nil => cases h
  | cons name r ih =>
    have hname : ch ∈ name.text.toList → isWordy ch = true ∧ ch ≠ '\x7d' := by
      intro hch
      refine ⟨isWordy_of_mem hch, ?_⟩
      rintro rfl
      exact absurd (name.ascii _ hch) (by decide)
    cases r with
    | nil => exact hname (by simpa using h)
    | cons next r =>
      have hcomma : ∀ ch ∈ ", ".toList, isWordy ch = true ∧ ch ≠ '\x7d' := by decide
      simp only [List.map_cons, List.intercalate_cons_cons, List.mem_append] at h ih
      rcases h with (h | h) | h
      · exact hname h
      · exact hcomma ch h
      · exact ih h

theorem isWordy_head (h : f.search = .imported ∨ f.search = .exported) :
    ∀ ch ∈ f.head.toList, isWordy ch = true := by
  cases f with
  | importDefault name =>
    simp only [head, String.toList_append, List.forall_mem_append]
    exact ⟨⟨by decide, fun ch => isWordy_of_mem⟩, by decide⟩
  | importNames names =>
    simp only [head, String.toList_append, List.forall_mem_append]
    exact ⟨⟨by decide, fun ch hch => (isWordy_of_mem_listed hch).1⟩, by decide⟩
  | importAll name =>
    simp only [head, String.toList_append, List.forall_mem_append]
    exact ⟨⟨by decide, fun ch => isWordy_of_mem⟩, by decide⟩
  | importOnly =>
    simp only [head]
    decide
  | exportAll =>
    simp only [head]
    decide
  | exportNames names =>
    simp only [head, String.toList_append, List.forall_mem_append]
    exact ⟨⟨by decide, fun ch hch => (isWordy_of_mem_listed hch).1⟩, by decide⟩
  | importCall name => simp [search] at h
  | requireCall name => simp [search] at h

/-- What stands before the quotation mark. -/
def lead (f : Form) : List Char := f.opening.toList ++ f.head.toList

theorem ne_of_isWordy {x : Char} (h : isWordy ch = true) (hx : isWordy x = false) : ch ≠ x := by
  rintro rfl
  rw [h] at hx
  cases hx

theorem isPlain_of_isWordy (h : isWordy ch = true) : isPlain ch = true := by
  have hdouble := ne_of_isWordy h (x := '"') (by decide)
  have hsingle := ne_of_isWordy h (x := '\'') (by decide)
  have hbreak := ne_of_isWordy h (x := '\n') (by decide)
  simp [isPlain, hdouble, hsingle, hbreak]

theorem opening_of_search (h : f.search = .imported ∨ f.search = .exported) : f.opening = "" := by
  cases f with
  | importCall name => simp [search] at h
  | requireCall name => simp [search] at h
  | _ => rfl

theorem isPlain_lead (f : Form) : ∀ ch ∈ f.lead, isPlain ch = true := by
  have hname : ∀ name : Identifier, ∀ ch ∈ name.text.toList, isPlain ch = true :=
    fun name ch hch => isPlain_of_isWordy (isWordy_of_mem hch)
  by_cases h : f.search = .imported ∨ f.search = .exported
  · rw [lead, opening_of_search h]
    exact fun ch hch => isPlain_of_isWordy (isWordy_head h ch hch)
  · cases f with
    | importCall name =>
      simp only [lead, opening, head, String.toList_append, List.forall_mem_append]
      exact ⟨⟨⟨by decide, hname name⟩, by decide⟩, by decide⟩
    | requireCall name =>
      simp only [lead, opening, head, String.toList_append, List.forall_mem_append]
      exact ⟨⟨⟨by decide, hname name⟩, by decide⟩, by decide⟩
    | _ => simp [search] at h

theorem isPlain_closing (f : Form) : ∀ ch ∈ f.closing.toList, isPlain ch = true := by
  cases f with
  | importCall name => simp only [closing]; decide
  | requireCall name => simp only [closing]; decide
  | _ => simp only [closing]; decide

/-- The first character of a line. -/
theorem head?_lead (f : Form) : f.lead.head? = some
    (match f.search with
      | .imported => 'i'
      | .exported => 'e'
      | _ => 'c') := by
  have hhead : ∀ {text : String} {ch : Char} (others : List Char), text.toList.head? = some ch →
      (text.toList ++ others).head? = some ch := by
    intro text ch others h
    rw [List.head?_append, h]
    rfl
  cases f with
  | importOnly =>
    simp only [lead, opening, head, search]
    decide
  | exportAll =>
    simp only [lead, opening, head, search]
    decide
  | _ =>
    simp only [lead, opening, head, search, String.toList_append, List.append_assoc,
      String.toList_empty, List.nil_append]
    exact hhead _ (by decide)

end Form

/-- A statement, with the mark that its specifier is quoted by. -/
structure Statement where
  form : Form
  double : Bool
  specifier : Specifier

namespace Statement

def mark (s : Statement) : Char := if s.double then '"' else '\''

/-- The statement as it is written. -/
def line (s : Statement) : String :=
  s.form.opening ++ s.form.head ++ s.mark.toString ++ s.specifier.text ++ s.mark.toString ++
    s.form.closing ++ ";"

/-- What the statement imports. -/
def edge (s : Statement) : Import :=
  { specifier := s.specifier.text, kind := s.form.kind }

theorem toList_line (s : Statement) : s.line.toList = s.form.lead ++
    s.mark :: (s.specifier.text.toList ++ s.mark :: (s.form.closing.toList ++ [';'])) := by
  simp [line, Form.lead, Char.toString]

theorem isQuoteMark_mark (s : Statement) : isQuoteMark s.mark = true := by
  unfold mark
  split <;> rfl

theorem notMem_line (s : Statement) : '\n' ∉ s.line.toList := by
  have hplain : ∀ {t : List Char}, (∀ ch ∈ t, isPlain ch = true) → '\n' ∉ t := by
    intro t ht hmem
    exact absurd (ht _ hmem) (by decide)
  have hmark : '\n' ≠ s.mark := by
    unfold mark
    split <;> decide
  rw [toList_line]
  simp [hplain s.form.isPlain_lead, hplain s.specifier.plain, hplain s.form.isPlain_closing, hmark]

end Statement

/-! ## Where a match begins -/

/-- Inside of a line nothing begins that must begin with a line. -/
theorem eq_nil_of_before {line ending a b : List Char} (hline : '\n' ∉ line)
    (hending : LineEnd ending rest) (h : line ++ ending = a ++ b) (hb : b ≠ [])
    (hbefore : (c.past a (b ++ rest)).before = none ∨
      (c.past a (b ++ rest)).before = some '\n') : a = [] := by
  rcases List.eq_nil_or_concat a with rfl | ⟨a, x, rfl⟩
  · rfl
  · obtain rfl : x = '\n' := by simpa [Cursor.past] using hbefore
    exfalso
    apply hline
    cases hending with
    | text =>
      rw [List.append_nil] at h
      rw [h]
      simp
    | lineBreak =>
      -- the break that is seen before the place is not the last one, so it is within the line
      obtain ⟨b, y, rfl⟩ := (List.eq_nil_or_concat b).resolve_left hb
      simp only [List.concat_eq_append, ← List.append_assoc] at h
      rw [(List.append_inj' h rfl).1]
      simp

namespace Statement

variable {s : Statement} {k : Search} {a b ending : List Char}

/-- Behind the specifier no call begins. -/
theorem ne_initial_of_mem {ch : Char} (hending : LineEnd ending rest)
    (h : ch ∈ s.mark :: (s.form.closing.toList ++ ([';'] ++ ending))) : ch ≠ 'i' ∧ ch ≠ 'r' := by
  have hmark : s.mark ≠ 'i' ∧ s.mark ≠ 'r' := by
    unfold mark
    split <;> decide
  have hclosing : ∀ ch ∈ s.form.closing.toList, ch ≠ 'i' ∧ ch ≠ 'r' := by
    cases s.form with
    | importCall name => simp only [Form.closing]; decide
    | requireCall name => simp only [Form.closing]; decide
    | _ => simp only [Form.closing]; decide
  have hend : ∀ ch ∈ [';'] ++ ending, ch ≠ 'i' ∧ ch ≠ 'r' := by
    cases hending with
    | text => decide
    | lineBreak => decide
  rcases List.mem_cons.1 h with rfl | h
  · exact hmark
  · rcases List.mem_append.1 h with h | h
    · exact hclosing ch h
    · exact hend ch h

/-- Where a call would begin behind the first quotation mark, there is none. -/
theorem not_call_behind {name : String} (hname : name = "import" ∨ name = "require")
    {closings : Language Char} (hending : LineEnd ending rest) {between : List Char}
    (h : s.mark :: (s.specifier.text.toList ++
      s.mark :: (s.form.closing.toList ++ ([';'] ++ ending))) = between ++ b) (hb : b ≠ [])
    (q : Quotation ({name.toList} * ({['(']} * Spaces)) closings (b ++ rest)) : False := by
  have hhead := head?_of_call hname q
  rw [List.head?_append_of_ne_nil _ hb] at hhead
  cases between with
  | nil =>
    obtain rfl : s.mark :: _ = b := h
    have hmark := ne_initial_of_mem hending List.mem_cons_self (s := s)
    simp [hmark] at hhead
  | cons x r =>
    obtain ⟨-, htail⟩ := List.cons.inj h
    rcases List.append_eq_append_iff.1 htail with ⟨between, rfl, hbehind⟩ | ⟨between, hspecifier, rfl⟩
    · obtain ⟨y, others, rfl⟩ := List.exists_cons_of_ne_nil hb
      have hmem : y ∈ s.mark :: (s.form.closing.toList ++ ([';'] ++ ending)) := by
        rw [hbehind]
        simp
      have hy := ne_initial_of_mem hending hmem
      simp [hy] at hhead
    · -- within the specifier, with the second mark as the only one that is left
      have hbetween : ∀ ch ∈ between, isQuoteMark ch = false := fun ch hch =>
        Quotation.isQuoteMark_eq_false (s.specifier.plain ch (by simp [hspecifier, hch]))
      have hclosing : ∀ ch ∈ s.form.closing.toList ++ [';'], isPlain ch = true := by
        rw [List.forall_mem_append]
        exact ⟨s.form.isPlain_closing, by decide⟩
      exact not_quotation_of_mark (avoids_callHeads hname) hending hbetween s.isQuoteMark_mark
        hclosing (by simp) q

/-- A call is found only where the statement has one, at its name. -/
theorem call_begins {name : String} (hname : name = "import" ∨ name = "require")
    {closings : Language Char} (hending : LineEnd ending rest)
    (h : s.line.toList ++ ending = a ++ b) (hb : b ≠ [])
    (q : Quotation ({name.toList} * ({['(']} * Spaces)) closings (b ++ rest)) :
    s.form.opening.toList = a ∧
      s.form.search = if name = "import" then .called else .required := by
  rw [toList_line, List.append_assoc, List.append_eq_append_iff] at h
  rcases h with ⟨between, rfl, hbehind⟩ | ⟨between, hfront, rfl⟩
  · exact (not_call_behind hname hending (by simpa using hbehind) hb q).elim
  · have hlead : ∀ ch ∈ between, isQuoteMark ch = false := fun ch hch =>
      Quotation.isQuoteMark_eq_false (s.form.isPlain_lead ch (by simp [hfront, hch]))
    obtain ⟨hhead, -, -⟩ := q.eq_of_avoids (avoids_callHeads hname q.head q.head_mem) hlead
      s.isQuoteMark_mark (List.append_assoc _ _ _)
    obtain ⟨_, rfl, _, ⟨_, rfl, bl, hbl, rfl⟩, hcall⟩ := q.head_mem
    have hlead : s.form.lead = a ++ (name.toList ++ '(' :: bl) := by
      rw [hfront, ← hhead, ← hcall]
      rfl
    by_cases hsearch : s.form.search = .imported ∨ s.form.search = .exported
    · -- such a statement has no bracket there
      rw [Form.lead, Form.opening_of_search hsearch] at hlead
      have hbracket : '(' ∈ s.form.head.toList := by
        have hmem : '(' ∈ a ++ (name.toList ++ '(' :: bl) := by simp
        rwa [← hlead] at hmem
      exact absurd (Form.isWordy_head hsearch _ hbracket) (by decide)
    · have himport : "import(".toList = "import".toList ++ ['('] := by decide
      have hrequire : "require(".toList = "require".toList ++ ['('] := by decide
      cases hform : s.form with
      | importCall x =>
        rw [hform, Form.lead, Form.head, himport] at hlead
        obtain ⟨rfl, hopening⟩ := call_eq hname (.inl rfl) hbl hlead
        exact ⟨hopening, rfl⟩
      | requireCall x =>
        rw [hform, Form.lead, Form.head, hrequire] at hlead
        obtain ⟨rfl, hopening⟩ := call_eq hname (.inr rfl) hbl hlead
        exact ⟨hopening, rfl⟩
      | _ => simp [hform, Form.search] at hsearch

/-- A match begins only where the search finds the statement. -/
theorem begins (hending : LineEnd ending rest) (h : s.line.toList ++ ending = a ++ b) (hb : b ≠ [])
    (hadmits : k.Admits (c.past a (b ++ rest))) (q : Quotation k.heads k.closings (b ++ rest)) :
    k = s.form.search ∧ s.form.opening.toList = a := by
  -- the first character of a line tells statements that are imported, exported and called apart
  have hfirst : ∀ {x : Char}, a = [] → (b ++ rest).head? = some x →
      x = (match s.form.search with | .imported => 'i' | .exported => 'e' | _ => 'c') := by
    rintro x rfl hx
    rw [List.nil_append] at h
    rw [← h, toList_line, List.append_assoc, List.append_assoc, List.head?_append,
      s.form.head?_lead] at hx
    exact (Option.some.inj hx).symm
  cases k with
  | imported =>
    have ha := eq_nil_of_before s.notMem_line hending h hb hadmits
    obtain ⟨x, hx, hkind⟩ := head?_of_worded q (x := 'i') (by decide)
    obtain rfl := hfirst ha hx
    have hsearch : s.form.search = .imported := by
      revert hkind
      cases s.form.search <;> decide
    exact ⟨hsearch.symm, by rw [Form.opening_of_search (.inl hsearch), ha]; rfl⟩
  | exported =>
    have ha := eq_nil_of_before s.notMem_line hending h hb hadmits
    obtain ⟨x, hx, hkind⟩ := head?_of_worded q (x := 'e') (by decide)
    obtain rfl := hfirst ha hx
    have hsearch : s.form.search = .exported := by
      revert hkind
      cases s.form.search <;> decide
    exact ⟨hsearch.symm, by rw [Form.opening_of_search (.inr hsearch), ha]; rfl⟩
  | called =>
    obtain ⟨hopening, hsearch⟩ := call_begins (.inl rfl) hending h hb q
    exact ⟨hsearch.symm, hopening⟩
  | required =>
    obtain ⟨hopening, hsearch⟩ := call_begins (.inr rfl) hending h hb q
    exact ⟨hsearch.symm, hopening⟩

end Statement

/-! ## The match of a statement -/

namespace Form

variable {f : Form} {ch : Char}

theorem isClauseChar_of_isWordy (h : isWordy ch = true) : isClauseChar ch = true := by
  simp only [isWordy, Bool.or_eq_true, List.contains_iff_mem] at h
  rcases h with h | h
  · simp [isClauseChar, isNameChar_of_isIdentifierChar h]
  · revert ch
    decide

theorem from_mem : " from ".toList ∈ Separator * ({"from".toList} * Separator) := by
  have hparts : " from ".toList = [' '] ++ ("from".toList ++ [' ']) := by decide
  rw [hparts]
  exact Language.append_mem_mul space_mem (Language.append_mem_mul (mem_singleton.2 rfl) space_mem)

/-- A statement begins with a word and a blank; the word `type` is not in the way. -/
theorem worded_mem (word : String) {l : Language Char} {t : List Char} (h : t ∈ l) :
    word.toList ++ ' ' :: t ∈ Spaces * ({word.toList} * (Separator * (Search.TypeWord * l))) := by
  have htype : [] ∈ Search.TypeWord := .inr rfl
  have hmem := Language.append_mem_mul nil_mem_spaces (Language.append_mem_mul
    (mem_singleton.2 rfl : word.toList ∈ ({word.toList} : Language Char))
    (Language.append_mem_mul space_mem (Language.append_mem_mul htype h)))
  simpa only [List.nil_append, List.singleton_append] using hmem

theorem import_mem {clause : List Char} (hne : clause ≠ [])
    (hclause : ∀ ch ∈ clause, isWordy ch = true) :
    "import".toList ++ ' ' :: (clause ++ " from ".toList) ∈ Search.heads .imported := by
  have hrun : clause ∈ ofClass isClauseChar * runsOf isClauseChar :=
    mem_run1.2 ⟨hne, fun ch hch => isClauseChar_of_isWordy (hclause ch hch)⟩
  exact worded_mem "import" (.inl (Language.append_mem_mul hrun from_mem))

theorem export_mem {clause : List Char} (h : clause ∈ Search.ExportClause) :
    "export".toList ++ ' ' :: (clause ++ " from ".toList) ∈ Search.heads .exported :=
  worded_mem "export" (Language.append_mem_mul h from_mem)

theorem call_mem (name : String) :
    name.toList ++ ['('] ∈ ({name.toList} * ({['(']} * Spaces) : Language Char) :=
  Language.append_mem_mul (mem_singleton.2 rfl)
    (Language.append_mem_mul (mem_singleton.2 rfl) nil_mem_spaces)

/-- What stands before the quotation mark is what is searched for. -/
theorem head_mem (f : Form) : f.head.toList ∈ f.search.heads := by
  cases f with
  | importDefault name =>
    have hne : name.text.toList ≠ [] := by simpa using name.nonempty
    have hmem := import_mem hne fun ch => isWordy_of_mem
    simpa [head, search] using hmem
  | importNames names =>
    have hclause : ∀ ch ∈ "\x7b ".toList ++ ((listed names).toList ++ " \x7d".toList),
        isWordy ch = true := by
      simp only [List.forall_mem_append]
      exact ⟨by decide, fun ch hch => (isWordy_of_mem_listed hch).1, by decide⟩
    have hmem := import_mem (by simp) hclause
    simpa [head, search] using hmem
  | importAll name =>
    have hclause : ∀ ch ∈ "* as ".toList ++ name.text.toList, isWordy ch = true := by
      simp only [List.forall_mem_append]
      exact ⟨by decide, fun ch => isWordy_of_mem⟩
    have hmem := import_mem (by simp) hclause
    simpa [head, search] using hmem
  | importOnly =>
    have hmem : "import".toList ++ ' ' :: [] ∈ Search.heads .imported :=
      worded_mem "import" (.inr rfl)
    simpa [head, search] using hmem
  | exportAll =>
    have hclause : ['*'] ∈ Search.ExportClause :=
      .inl (Language.append_mem_mul (mem_singleton.2 rfl) (.inr rfl))
    have hmem := export_mem hclause
    simpa [head, search] using hmem
  | exportNames names =>
    have hlisted : ∀ ch ∈ ' ' :: ((listed names).toList ++ [' ']), (ch != '\x7d') = true := by
      have hspace : (' ' != '\x7d') = true := by decide
      simp only [List.forall_mem_cons, List.forall_mem_append]
      exact ⟨hspace, fun ch hch => bne_iff_ne.2 (isWordy_of_mem_listed hch).2, hspace,
        fun _ hch => (List.not_mem_nil hch).elim⟩
    have hclause : ['\x7b'] ++ ((' ' :: ((listed names).toList ++ [' '])) ++ ['\x7d']) ∈
        Search.ExportClause :=
      .inr (Language.append_mem_mul (mem_singleton.2 rfl)
        (Language.append_mem_mul hlisted (mem_singleton.2 rfl)))
    have hmem := export_mem hclause
    simpa [head, search] using hmem
  | importCall name =>
    have hmem := call_mem "import"
    simpa [head, search, Search.heads] using hmem
  | requireCall name =>
    have hmem := call_mem "require"
    simpa [head, search, Search.heads] using hmem

theorem closing_mem (f : Form) : f.closing.toList ∈ f.search.closings := by
  have hcall : [')'] ∈ Spaces * ({[')']} : Language Char) :=
    Language.append_mem_mul nil_mem_spaces (mem_singleton.2 rfl)
  cases f with
  | importCall name => simpa [closing, search, Search.closings] using hcall
  | requireCall name => simpa [closing, search, Search.closings] using hcall
  | _ => exact rfl

/-- What stands behind the quotation is what is searched for, and no more. -/
theorem closing_eq {closing others others' : List Char} (h : closing ∈ f.search.closings)
    (heq : closing ++ others = f.closing.toList ++ others') : closing = f.closing.toList := by
  have hcall : ∀ {closing : List Char}, closing ∈ Spaces * ({[')']} : Language Char) →
      closing ++ others = [')'] ++ others' → closing = [')'] := by
    rintro _ ⟨blanks, hblanks, _, rfl, rfl⟩ heq
    cases blanks with
    | nil => rfl
    | cons ch r =>
      obtain ⟨rfl, -⟩ := List.cons.inj heq
      exact absurd (hblanks ')' List.mem_cons_self) (by decide)
  cases f with
  | importCall name =>
    simpa [Form.closing] using hcall h (by simpa [Form.closing] using heq)
  | requireCall name =>
    simpa [Form.closing] using hcall h (by simpa [Form.closing] using heq)
  | _ => exact h

theorem isQuoteMark_head (f : Form) : ∀ ch ∈ f.head.toList, isQuoteMark ch = false :=
  fun ch hch => Quotation.isQuoteMark_eq_false (f.isPlain_lead ch (List.mem_append_right _ hch))

/-- Between what stands before and the quotation mark there is one closing brace. -/
theorem exportNames_head (names : List Identifier) : (exportNames names).head.toList =
      ("export \x7b ".toList ++ ((listed names).toList ++ [' '])) ++ '\x7d' :: " from ".toList ∧
    ∀ ch ∈ "export \x7b ".toList ++ ((listed names).toList ++ [' ']), (ch == '\x7d') = false := by
  constructor
  · simp [head]
  · simp only [List.forall_mem_append]
    refine ⟨by decide, fun ch hch => ?_, by decide⟩
    exact beq_eq_false_iff_ne.2 (isWordy_of_mem_listed hch).2

/-- Before the quotation mark of a statement there is but one text that is searched for. -/
theorem head_eq {k : Search} (hk : k = f.search) {text others : List Char} {mark : Char}
    (hmark : isQuoteMark mark = true) (htext : text = f.head.toList ++ mark :: others)
    (q : Quotation k.heads k.closings text) : q.head = f.head.toList := by
  have hplain : (∀ ch ∈ q.head, isQuoteMark ch = false) → q.head = f.head.toList :=
    fun h => (q.eq_of_avoids h f.isQuoteMark_head hmark htext).1
  have hmem := q.head_mem
  cases k with
  | imported => exact hplain (avoids_importHeads _ hmem)
  | called => exact hplain (avoids_callHeads (.inl rfl) _ hmem)
  | required => exact hplain (avoids_callHeads (.inr rfl) _ hmem)
  | exported =>
    -- between braces there could be a quotation mark, so the marks do not tell
    rcases exportHeads_cases hmem with h | ⟨first, body, last, hhead, hfirst, hbody, hlast⟩
    · exact hplain h
    · have heq : first ++ '\x7b' :: (body ++ '\x7d' :: (last ++ q.mark ::
          (q.specifier ++ q.mark' :: (q.closing ++ q.rest)))) = f.head.toList ++ mark :: others := by
        have hboth := q.text_eq.symm.trans htext
        rw [hhead] at hboth
        simpa using hboth
      cases f with
      | exportAll =>
        -- there is no brace before the quotation mark
        have hlead : ∀ ch ∈ "export * from ".toList, isMarkOrBrace ch = false := by decide
        obtain ⟨-, hbrace, -⟩ := append_cons_inj hfirst hlead (by decide)
          (by simp [isMarkOrBrace, hmark]) heq
        rw [← hbrace] at hmark
        exact absurd hmark (by decide)
      | exportNames names =>
        -- the first closing brace is that of the list
        obtain ⟨hsplit, hlisted⟩ := exportNames_head names
        have hbraced : ∀ ch ∈ first ++ '\x7b' :: body, (ch == '\x7d') = false := by
          rw [List.forall_mem_append, List.forall_mem_cons]
          refine ⟨fun ch hch => ?_, by decide, hbody⟩
          have hch := hfirst ch hch
          simp only [isMarkOrBrace, Bool.or_eq_false_iff] at hch
          exact hch.2
        have hclosed : (first ++ '\x7b' :: body) ++ '\x7d' :: (last ++ q.mark ::
            (q.specifier ++ q.mark' :: (q.closing ++ q.rest))) =
            ("export \x7b ".toList ++ ((listed names).toList ++ [' '])) ++
              '\x7d' :: (" from ".toList ++ mark :: others) := by
          rw [hsplit] at heq
          simpa using heq
        obtain ⟨hbefore, -, hbehind⟩ := append_cons_inj hbraced hlisted (by decide) (by decide) hclosed
        obtain ⟨hfrom, -, -⟩ := append_cons_inj hlast (by decide) q.isMark hmark hbehind
        rw [hsplit, ← hbefore, ← hfrom, hhead]
        simp
      | _ => simp [search] at hk

end Form

namespace Statement

variable {s : Statement} {k : Search} {a b ending : List Char}

/-- The statement from the place at which it is found. -/
def matched (s : Statement) : List Char :=
  s.form.head.toList ++ s.mark :: (s.specifier.text.toList ++ s.mark :: s.form.closing.toList)

/-- The match of the statement in a line that begins at the index. -/
def found (s : Statement) (index : Nat) : Found where
  start := index + s.form.opening.toList.length
  stop := index + s.form.opening.toList.length + s.matched.length
  captured := some (index + (s.form.lead.length + 1), s.specifier.text.toList)

theorem toList_line_eq (s : Statement) :
    s.line.toList = s.form.opening.toList ++ (s.matched ++ [';']) := by
  simp [toList_line, matched, Form.lead]

/-- The place behind the match. -/
def stop (s : Statement) (c : Cursor) (rest : List Char) : Cursor :=
  c.capturing (s.form.head.toList ++ [s.mark]) s.specifier.text.toList
    ([s.mark] ++ s.form.closing.toList) rest

theorem index_stop (s : Statement) (c : Cursor) (rest : List Char) :
    (s.stop c rest).index = c.index + s.matched.length := by
  simp [stop, matched, Cursor.capturing, Cursor.past]

theorem captured_stop (s : Statement) (c : Cursor) (rest : List Char) :
    (s.stop c rest).captured =
      some (c.index + (s.form.head.toList.length + 1), s.specifier.text.toList) := by
  simp [stop, Cursor.capturing]

/-- Where the statement is found there is one match. -/
theorem mem_matcher_iff {rest : List Char} (hrest : c.rest = s.matched ++ ';' :: rest)
    (hadmits : s.form.search.Admits c) :
    e ∈ s.form.search.matcher c ↔ e = s.stop c (';' :: rest) := by
  have htext : c.rest = s.form.head.toList ++ s.mark :: (s.specifier.text.toList ++
      s.mark :: (s.form.closing.toList ++ (';' :: rest))) := by
    rw [hrest, matched]
    simp
  rw [Search.mem_matcher_iff, and_iff_right hadmits]
  constructor
  · rintro ⟨q, rfl⟩
    -- the parts of the match are those of the statement, one after the other
    have hhead := Form.head_eq rfl s.isQuoteMark_mark htext q
    obtain ⟨-, hmark, hquoted⟩ := q.eq_of_avoids (by rw [hhead]; exact s.form.isQuoteMark_head)
      s.form.isQuoteMark_head s.isQuoteMark_mark htext
    obtain ⟨hspecifier, hmark', hclosed⟩ :=
      q.specifier_eq s.specifier.plain s.isQuoteMark_mark hquoted
    have hclosing := Form.closing_eq q.closing_mem hclosed
    have hbehind : q.rest = ';' :: rest := by
      rw [hclosing] at hclosed
      exact List.append_cancel_left hclosed
    simp only [Quotation.stop, stop, hhead, hmark, hspecifier, hmark', hclosing, hbehind]
  · rintro rfl
    have hne : s.specifier.text.toList ≠ [] := by simpa using s.specifier.nonempty
    exact ⟨⟨_, _, _, _, _, _, htext, s.form.head_mem, s.form.closing_mem, s.isQuoteMark_mark,
      s.isQuoteMark_mark, hne, s.specifier.plain⟩, rfl⟩

theorem prefers_matcher (rest : List Char) (hrest : c.rest = s.matched ++ ';' :: rest)
    (hadmits : s.form.search.Admits c) :
    Prefers s.form.search.matcher c (s.stop c (';' :: rest)) := by
  rw [Prefers]
  cases hall : s.form.search.matcher c with
  | nil =>
    have hmem := (mem_matcher_iff hrest hadmits).2 rfl
    rw [hall] at hmem
    cases hmem
  | cons e r =>
    have hmem : e ∈ s.form.search.matcher c := by simp [hall]
    rw [(mem_matcher_iff hrest hadmits).1 hmem]
    rfl

/-- A match can begin where the statement is found. -/
theorem admits_opening {rest : List Char} (hc : c.AtLine) :
    s.form.search.Admits (c.past s.form.opening.toList (s.matched ++ rest)) := by
  have hcall : ∀ {opening head : List Char}, opening.getLast? = some ' ' →
      head.head?.any Unicode.isWord = true → (c.past opening (head ++ rest)).IsEdge := by
    intro opening head hopening hhead
    have hbefore : (some ' ').any Unicode.isWord = false := by decide
    rw [Cursor.IsEdge, Cursor.past, hopening, Option.some_or, hbefore, List.head?_append_of_ne_nil]
    · simp [hhead]
    · rintro rfl
      cases hhead
  have hspace : ∀ {front back : String}, back.toList.getLast? = some ' ' →
      (front ++ back).toList.getLast? = some ' ' := by
    intro front back h
    rw [String.toList_append, List.getLast?_append, h]
    rfl
  have hword : ∀ {front : String} {back : List Char}, front.toList.head?.any Unicode.isWord = true →
      (front.toList ++ back).head?.any Unicode.isWord = true := by
    intro front back h
    cases hfront : front.toList with
    | nil => simp [hfront] at h
    | cons ch r => simpa [hfront] using h
  -- a call is a word of its own, since a blank stands before it
  cases hform : s.form with
  | importCall name =>
    refine hcall (hspace (by decide)) ?_
    rw [matched, hform, Form.head]
    exact hword (by decide)
  | requireCall name =>
    refine hcall (hspace (by decide)) ?_
    rw [matched, hform, Form.head]
    exact hword (by decide)
  | _ => simpa [Search.Admits, Form.search, Form.opening, Cursor.past] using hc.before

theorem matched_ne_nil (s : Statement) : s.matched ≠ [] := by simp [matched]

theorem line_append (s : Statement) (ending : List Char) : s.line.toList ++ ending =
    s.form.opening.toList ++ (s.matched ++ (';' :: ending)) := by
  rw [toList_line_eq]
  simp

/-- What the search for a form finds in a line that holds a statement. -/
theorem found_line (hc : c.AtLine) (hending : LineEnd ending rest)
    (hrest : c.rest = s.line.toList ++ ending ++ rest) (k : Search) :
    Scan.found k.matcher c = (if s.form.search = k then some (s.found c.index) else none).toList ++
      Scan.found k.matcher (c.past (s.line.toList ++ ending) rest) := by
  have hbegins : ∀ a b, s.line.toList ++ ending = a ++ b → b ≠ [] →
      k.matcher (c.past a (b ++ rest)) ≠ [] → k = s.form.search ∧ s.form.opening.toList = a := by
    intro a b h hb hne
    obtain ⟨e, he⟩ := List.exists_mem_of_ne_nil _ hne
    obtain ⟨hadmits, q, -⟩ := k.mem_matcher_iff.1 he
    exact begins hending h hb hadmits q
  split
  · next hk =>
    subst hk
    have hmatch := prefers_matcher (s := s) (ending ++ rest) rfl (admits_opening hc)
    rw [line_append] at hrest hbegins ⊢
    rw [found_of_one hc.toFresh hrest s.matched_ne_nil
      (fun a b h hb hne => (hbegins a b h hb hne).2.symm) hmatch
      (by rw [index_stop, Cursor.past, Nat.add_assoc])]
    simp [found, index_stop, captured_stop, Cursor.past, Form.lead, Nat.add_assoc]
  · next hk =>
    refine found_of_unmatched hc.toFresh hrest ?_
    intro a b h hb
    by_contra hne
    exact hk (hbegins a b h hb hne).1.symm

/-- What the statement imports, with the place of the specifier in the text. -/
def placed (p : Nat × Statement) : Placed := (p.1 + (p.2.form.lead.length + 1), p.2.edge)

/-- The statement, where it is of the form. -/
def placed? (k : Search) (p : Nat × Statement) : Option Placed :=
  if p.2.form.search = k then some (placed p) else none

variable {statements : List Statement} {text : List Char}

/-- A search finds the statements of its form. -/
theorem collect_eq (h : InLines (statements.map fun s => s.line.toList) text) (k : Search) :
    collect k.matcher k.kind text =
      (starts (fun s : Statement => s.line.toList) 0 statements).filterMap (placed? k) := by
  have hall : findAll k.matcher text = (starts (fun s : Statement => s.line.toList) 0
      statements).filterMap fun p => if p.2.form.search = k then some (p.2.found p.1) else none :=
    findAll_inLines h fun s _ c ending rest hc hending hrest => found_line hc hending hrest k
  rw [collect, hall, List.filterMap_filterMap]
  refine List.filterMap_congr fun p _ => ?_
  unfold placed?
  split
  · next hk =>
    subst hk
    simp [found, placed, edge, Form.kind_search]
  · rfl

/-- Each statement is found by one of the searches. -/
theorem filterMap_placed?_perm (l : List (Nat × Statement)) :
    (l.filterMap (placed? .imported) ++ l.filterMap (placed? .exported) ++
      l.filterMap (placed? .called) ++ l.filterMap (placed? .required)).Perm (l.map placed) := by
  induction l with
  | nil => exact List.Perm.nil
  | cons p r ih =>
    rw [List.map_cons]
    refine List.Perm.trans ?_ (ih.cons (placed p))
    have hother : ∀ {k}, p.2.form.search ≠ k →
        (p :: r).filterMap (placed? k) = r.filterMap (placed? k) := by
      intro k hk
      rw [List.filterMap_cons, placed?, if_neg hk]
    have hself : ∀ {k}, p.2.form.search = k →
        (p :: r).filterMap (placed? k) = placed p :: r.filterMap (placed? k) := by
      intro k hk
      rw [List.filterMap_cons, placed?, if_pos hk]
    cases hsearch : p.2.form.search with
    | imported =>
      rw [hself hsearch, hother (by simp [hsearch]), hother (by simp [hsearch]),
        hother (by simp [hsearch])]
      exact List.Perm.refl _
    | exported =>
      rw [hself hsearch, hother (by simp [hsearch]), hother (by simp [hsearch]),
        hother (by simp [hsearch])]
      exact (List.perm_middle.append_right _).append_right _
    | called =>
      rw [hself hsearch, hother (by simp [hsearch]), hother (by simp [hsearch]),
        hother (by simp [hsearch])]
      exact List.perm_middle.append_right _
    | required =>
      rw [hself hsearch, hother (by simp [hsearch]), hother (by simp [hsearch]),
        hother (by simp [hsearch])]
      exact List.perm_middle

/-- The specifiers of statements stand in the order of the statements. -/
theorem pairwise_placed (index : Nat) (statements : List Statement) :
    ((starts (fun s : Statement => s.line.toList) index statements).map placed).Pairwise
      fun a b => a.1 < b.1 := by
  refine List.pairwise_map.2 ((pairwise_starts _ index statements).imp ?_)
  intro p q h
  have hline : p.2.form.lead.length + 1 ≤ p.2.line.toList.length := by
    rw [toList_line]
    simp only [List.length_append, List.length_cons]
    omega
  show p.1 + (p.2.form.lead.length + 1) < q.1 + (q.2.form.lead.length + 1)
  omega

/-- The imports of a script that consists of statements, each on a line of its own, are those of the
statements, in their order; what an earlier statement imports in the same way is left out. -/
theorem scriptImports_statements {statements : List Statement} {source : String}
    (h : InLines (statements.map fun s => s.line.toList) source.toList) :
    scriptImports source = (statements.map edge).eraseDups := by
  have hperm := filterMap_placed?_perm (starts (fun s : Statement => s.line.toList) 0 statements)
  simp only [← collect_eq h] at hperm
  have hresolved : ∀ a ∈ (starts (fun s : Statement => s.line.toList) 0 statements).map placed,
      a.2.resolved = none := by
    intro a ha
    obtain ⟨p, -, rfl⟩ := List.mem_map.1 ha
    rfl
  have hedges : ((starts (fun s : Statement => s.line.toList) 0 statements).map placed).map
      Prod.snd = statements.map edge := by
    rw [List.map_map, ← map_snd_starts (fun s : Statement => s.line.toList) 0 statements,
      List.map_map, map_snd_starts]
    rfl
  rw [← hedges]
  exact inTextOrder_of_perm hperm (pairwise_placed 0 statements) hresolved

def nestedStatements : List Statement := [
  ⟨.importDefault ⟨"X", by decide, by decide⟩, true,
    ⟨"require(", by decide, by decide⟩⟩,
  ⟨.importCall ⟨"f", by decide, by decide⟩, false, ⟨"./a", by decide, by decide⟩⟩,
  ⟨.exportAll, true, ⟨"./a", by decide, by decide⟩⟩,
  ⟨.importOnly, false, ⟨"require(", by decide, by decide⟩⟩]

def nestedScript : String := "\n".intercalate
  ["import X from \"require(\";", "const f = () => import('./a');", "export * from \"./a\";",
    "import 'require(';"]

/-- A specifier that looks like a call, and one that is used in two ways. -/
theorem scriptImports_statements_nested :
    InLines (nestedStatements.map fun s => s.line.toList) nestedScript.toList ∧
    scriptImports nestedScript =
      [⟨"require(", .static, none⟩, ⟨"./a", .dynamic, none⟩, ⟨"./a", .reExport, none⟩] := by
  have hscript : nestedScript = "\n".intercalate (nestedStatements.map line) := by decide
  have hlines : InLines (nestedStatements.map fun s => s.line.toList) nestedScript.toList := by
    have hjoined := inLines_intercalate (nestedStatements.map line)
    rwa [List.map_map, ← hscript] at hjoined
  refine ⟨hlines, ?_⟩
  rw [scriptImports_statements hlines]
  decide

end Statement

end Bindery.Scan
