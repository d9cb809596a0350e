import Bindery.Proofs.Scan.Imports
import Bindery.Proofs.Scan.Matcher
import Bindery.Proofs.Bundle.HotUpdate
import Bindery.Proofs.Text.Utf8

/-!
# Writes to the global object

A script writes to the global object where it assigns to a property of it, however deep, or hands the
object over to be written to. Of the operators that assign, three are looked for. A write with one
of them is never missed, whatever stands around it, and an update of a script that holds one asks for
a full reload; a write with any other operator goes unseen.

* `Scan.writesGlobalState_iff` : what is looked for, as a language.
* `Scan.HoldsWrite` : a script assigns to a property of the global object by an operator.
* `Scan.detects_iff` : the operators by which no write is missed.
* `Scan.not_found_scaled` : a number is multiplied in place, and nothing is found.
-/

namespace Bindery

namespace Scan

open Computability

/-! ## What is looked for -/

/-- Access to a property, by name or by a key in brackets. -/
def Access : Language Char :=
  Spaces * ({['.']} * (Spaces * (ofClass isNameChar * runsOf isNameChar))) +
    Spaces * ({['[']} * ((ofClass (· != ']') * runsOf (· != ']')) * {[']']}))

/-- A property of the global object, however deep. -/
def Target : Language Char := wordsOf globalNames * (Access * Access∗)

/-- An assignment that is looked for: an equals sign that no other one follows, or adding to or
subtracting from what is there. -/
def Assigned : Language Char := {['=']} * ofClass (· != '=') + wordsOf ["+=", "-="]

/-- The start of a call that writes to an object, with the global object as its first argument. -/
def HandedOver : Language Char :=
  {"Object.".toList} *
    (wordsOf ["assign", "defineProperty"] * ({['(']} * (Spaces * wordsOf globalNames)))

theorem reads_propertyAccess : Reads propertyAccess Access :=
  (reads_blanks.andThen ((reads_word _).andThen (reads_blanks.andThen (reads_run1 _)))).orElse
    (reads_blanks.andThen ((reads_word _).andThen ((reads_run1 _).andThen (reads_word _))))

theorem reads_assignment : Reads assignment Assigned :=
  ((reads_word _).andThen (reads_oneOf _)).orElse (reads_anyWord _)

/-- An access takes at least a point or a bracket. -/
theorem nil_notMem_access : [] ∉ Access := by
  rintro (⟨_, -, _, ⟨_, rfl, _, -, rfl⟩, h⟩ | ⟨_, -, _, ⟨_, rfl, _, -, rfl⟩, h⟩) <;> simp at h

theorem reads_handedOver : Reads
    (inOrder [word "Object.".toList, anyWord ["assign", "defineProperty"], word ['('], blanks,
      anyWord globalNames]) HandedOver :=
  (reads_word _).andThen ((reads_anyWord _).andThen ((reads_word _).andThen
    (reads_blanks.andThen (reads_anyWord _))))

theorem reads_target : Reads
    (inOrder [anyWord globalNames, repeat1 propertyAccess, blanks, assignment])
    (wordsOf globalNames * ((Access * Access∗) * (Spaces * Assigned))) :=
  (reads_anyWord _).andThen ((reads_propertyAccess.repeat1 nil_notMem_access).andThen
    (reads_blanks.andThen reads_assignment))

/-- A global name begins and ends with a character of a word. -/
theorem isWord_of_mem_globalNames {name : String} (h : name ∈ globalNames) :
    name.toList.head?.any Unicode.isWord = true ∧ name.toList.getLast?.any Unicode.isWord = true := by
  revert name
  decide

theorem exists_head?_of_mem_mul {taken : List Char} {k : Language Char}
    (h : taken ∈ wordsOf globalNames * k) :
    ∃ ch, taken.head? = some ch ∧ Unicode.isWord ch = true := by
  obtain ⟨_, ⟨name, hname, rfl⟩, others, -, rfl⟩ := h
  obtain ⟨ch, hch, hword⟩ := (Option.any_eq_true ..).1 (isWord_of_mem_globalNames hname).1
  exact ⟨ch, by simp [List.head?_append, hch], hword⟩

theorem exists_getLast?_of_mem_mul {p : Char → Bool} {l k : Language Char}
    (hk : ∀ t ∈ k, ∃ ch, t.getLast? = some ch ∧ p ch = true) {t : List Char} (h : t ∈ l * k) :
    ∃ ch, t.getLast? = some ch ∧ p ch = true := by
  obtain ⟨first, -, last, hlast, rfl⟩ := h
  obtain ⟨ch, hch, hp⟩ := hk last hlast
  exact ⟨ch, by simp [List.getLast?_append, hch], hp⟩

theorem exists_getLast?_of_mem_handedOver {taken : List Char} (h : taken ∈ HandedOver) :
    ∃ ch, taken.getLast? = some ch ∧ Unicode.isWord ch = true := by
  refine exists_getLast?_of_mem_mul (fun _ => exists_getLast?_of_mem_mul fun _ =>
    exists_getLast?_of_mem_mul fun _ => exists_getLast?_of_mem_mul fun _ => ?_) h
  rintro ⟨name, hname, rfl⟩
  exact (Option.any_eq_true ..).1 (isWord_of_mem_globalNames hname).2

theorem exists_mem_globalWrite_iff {c : Cursor} : (∃ e, e ∈ globalWrite c) ↔
    (c.IsEdge ∧ ∃ taken rest, c.rest = taken ++ rest ∧
      taken ∈ wordsOf globalNames * ((Access * Access∗) * (Spaces * Assigned))) ∨
    ∃ taken rest, c.rest = taken ++ rest ∧ taken ∈ HandedOver ∧ (c.past taken rest).IsEdge := by
  have hcall := @inOrder_concat [word "Object.".toList, anyWord ["assign", "defineProperty"],
    word ['('], blanks, anyWord globalNames] (List.cons_ne_nil _ _) wordEdge
  have hwrite : ∀ e, e ∈ globalWrite c ↔
      e ∈ andThen wordEdge (inOrder [anyWord globalNames, repeat1 propertyAccess, blanks,
        assignment]) c ∨
      e ∈ andThen (inOrder [word "Object.".toList, anyWord ["assign", "defineProperty"], word ['('],
        blanks, anyWord globalNames]) wordEdge c := by
    intro e
    rw [← hcall]
    exact List.mem_append
  rw [exists_congr hwrite, exists_or, ← reads_target.exists_mem_iff]
  refine or_congr ?_ ?_
  · simp only [andThen, List.mem_flatMap, mem_wordEdge]
    constructor
    · rintro ⟨e, d, ⟨hedge, rfl⟩, he⟩
      exact ⟨hedge, e, he⟩
    · rintro ⟨hedge, e, he⟩
      exact ⟨e, c, ⟨hedge, rfl⟩, he⟩
  · simp only [andThen, List.mem_flatMap, mem_wordEdge, reads_handedOver c]
    constructor
    · rintro ⟨e, d, ⟨taken, rest, hrest, htaken, rfl⟩, hedge, -⟩
      exact ⟨taken, rest, hrest, htaken, hedge⟩
    · rintro ⟨taken, rest, hrest, htaken, hedge⟩
      exact ⟨_, _, ⟨taken, rest, hrest, htaken, rfl⟩, hedge, rfl⟩

/-- What is found: a property of the global object, named as a word of its own, and an assignment
that is looked for; or a call that the object is handed over to. -/
theorem writesGlobalState_iff {source : String} : writesGlobalState source = true ↔
    (∃ before target behind, source.toList = before ++ (target ++ behind) ∧
      before.getLast?.any Unicode.isWord = false ∧ target ∈ Target * (Spaces * Assigned)) ∨
    ∃ before call behind, source.toList = before ++ (call ++ behind) ∧ call ∈ HandedOver ∧
      behind.head?.any Unicode.isWord = false := by
  rw [Target, mul_assoc]
  unfold writesGlobalState
  rw [occurs_iff]
  constructor
  · rintro ⟨before, rest, e, hsource, -, he⟩
    rcases exists_mem_globalWrite_iff.1 ⟨e, he⟩ with
      ⟨hedge, target, behind, hrest, htarget⟩ | ⟨call, behind, hrest, hcall, hedge⟩
    · obtain rfl : rest = target ++ behind := hrest
      obtain ⟨ch, hch, hword⟩ := exists_head?_of_mem_mul htarget
      refine .inl ⟨before, target, behind, hsource, ?_, htarget⟩
      simpa [Cursor.IsEdge, hch, hword] using hedge
    · obtain rfl : rest = call ++ behind := hrest
      obtain ⟨ch, hch, hword⟩ := exists_getLast?_of_mem_handedOver hcall
      refine .inr ⟨before, call, behind, hsource, hcall, ?_⟩
      simpa [Cursor.IsEdge, Cursor.past, hch, hword] using hedge
  · rintro (⟨before, target, behind, hsource, hapart, htarget⟩ |
      ⟨before, call, behind, hsource, hcall, hapart⟩)
    · obtain ⟨ch, hch, hword⟩ := exists_head?_of_mem_mul htarget
      have hedge : Cursor.IsEdge { before := before.getLast?.or none, rest := target ++ behind
                                   index := 0 } := by
        simp [Cursor.IsEdge, hch, hword, hapart]
      obtain ⟨e, he⟩ := exists_mem_globalWrite_iff.2
        (.inl ⟨hedge, target, behind, rfl, htarget⟩)
      refine ⟨before, target ++ behind, e, hsource, ?_, he⟩
      intro hnil
      simp [(List.append_eq_nil_iff.1 hnil).1] at hch
    · obtain ⟨ch, hch, hword⟩ := exists_getLast?_of_mem_handedOver hcall
      have hedge : Cursor.IsEdge (Cursor.past { before := before.getLast?.or none
                                                rest := call ++ behind, index := 0 } call behind) := by
        simp [Cursor.IsEdge, Cursor.past, hch, hword, hapart]
      obtain ⟨e, he⟩ := exists_mem_globalWrite_iff.2 (.inr ⟨call, behind, rfl, hcall, hedge⟩)
      refine ⟨before, call ++ behind, e, hsource, ?_, he⟩
      intro hnil
      simp [(List.append_eq_nil_iff.1 hnil).1] at hch

/-! ## Writes -/

/-- The operators of scripts that assign. -/
inductive AssignOp where
  | set | add | subtract | multiply | divide | remainder | power
  | shiftLeft | shiftRight | shiftRightUnsigned | bitAnd | bitOr | bitXor
  | logicalAnd | logicalOr | nullish
  deriving DecidableEq, Repr

def AssignOp.text : AssignOp → String
  | .set => "="
  | .add => "+="
  | .subtract => "-="
  | .multiply => "*="
  | .divide => "/="
  | .remainder => "%="
  | .power => "**="
  | .shiftLeft => "<<="
  | .shiftRight => ">>="
  | .shiftRightUnsigned => ">>>="
  | .bitAnd => "&="
  | .bitOr => "|="
  | .bitXor => "^="
  | .logicalAnd => "&&="
  | .logicalOr => "||="
  | .nullish => "??="

/-- The script assigns to a property of the global object, named as a word of its own: blanks may
stand before the operator, and behind it stand blanks and an operand. -/
def HoldsWrite (op : AssignOp) (source : String) : Prop :=
  ∃ before target space gap operand,
    source.toList = before ++ (target ++ (space ++ (op.text.toList ++ (gap ++ operand)))) ∧
      before.getLast?.any Unicode.isWord = false ∧ target ∈ Target ∧ space ∈ Spaces ∧
      gap ∈ Spaces ∧ gap ≠ [] ∧ operand.head?.any (!Text.isBlank ·) = true

/-- The operators that are looked for. -/
def AssignOp.IsKnown (op : AssignOp) : Prop := op = .set ∨ op = .add ∨ op = .subtract

/-- An operator that is looked for makes an assignment with what stands behind it. -/
theorem exists_assigned_of_isKnown {op : AssignOp} (h : op.IsKnown) {gap : List Char}
    (hgap : gap ∈ Spaces) (hne : gap ≠ []) :
    ∃ t rest, t ∈ Assigned ∧ op.text.toList ++ gap = t ++ rest := by
  rcases h with rfl | rfl | rfl
  · cases gap with
    | nil => exact absurd rfl hne
    | cons ch r =>
      have hblank : Text.isBlank ch = true := hgap ch List.mem_cons_self
      have hch : ch ≠ '=' := by
        rintro rfl
        simp [Text.isBlank] at hblank
      exact ⟨['=', ch], r, .inl ⟨['='], rfl, [ch], ⟨ch, by simpa using hch, rfl⟩, rfl⟩, rfl⟩
  · exact ⟨_, gap, .inr ⟨"+=", by simp, rfl⟩, rfl⟩
  · exact ⟨_, gap, .inr ⟨"-=", by simp, rfl⟩, rfl⟩

/-- A write with an operator that is looked for is found, whatever stands around it. -/
theorem writesGlobalState_of_holdsWrite {op : AssignOp} (hop : op.IsKnown) {source : String}
    (h : HoldsWrite op source) : writesGlobalState source = true := by
  obtain ⟨before, target, space, gap, operand, hsource, hapart, htarget, hspace, hgap, hne, -⟩ := h
  obtain ⟨assigned, rest, hassigned, htext⟩ := exists_assigned_of_isKnown hop hgap hne
  refine writesGlobalState_iff.2 (.inl ⟨before, target ++ (space ++ assigned), rest ++ operand, ?_,
    hapart, ⟨target, htarget, space ++ assigned, ⟨space, hspace, assigned, hassigned, rfl⟩, rfl⟩⟩)
  have htail : op.text.toList ++ (gap ++ operand) = assigned ++ (rest ++ operand) := by
    rw [← List.append_assoc, htext, List.append_assoc]
  rw [hsource, htail]
  simp

/-- A property that is named behind a point. -/
theorem property_mem_target {name : String} (hname : name ∈ globalNames) {ch : Char}
    {property : List Char} (h : ∀ x ∈ ch :: property, isNameChar x = true) :
    name.toList ++ '.' :: ch :: property ∈ Target := by
  have hnone : [] ∈ Spaces := by simp [Spaces, mem_runsOf]
  obtain ⟨hch, hproperty⟩ := List.forall_mem_cons.1 h
  have haccess : '.' :: ch :: property ∈ Access :=
    .inl ⟨[], hnone, _, ⟨['.'], rfl, _, ⟨[], hnone, _, ⟨[ch], ⟨ch, hch, rfl⟩, property, hproperty,
      rfl⟩, rfl⟩, rfl⟩, rfl⟩
  exact ⟨_, ⟨name, hname, rfl⟩, _, ⟨_, haccess, [], Language.nil_mem_kstar _, rfl⟩, by simp⟩

/-! ## Operators that are not looked for -/

/-- A script that is one write. -/
def AssignOp.bareWrite (op : AssignOp) : String := "self.x " ++ op.text ++ " 1"

theorem holdsWrite_bareWrite (op : AssignOp) : HoldsWrite op op.bareWrite := by
  have htarget : "self".toList ++ '.' :: 'x' :: [] ∈ Target :=
    property_mem_target (by simp [globalNames]) (by simp [isNameChar, Unicode.isWord])
  refine ⟨[], _, [' '], [' '], ['1'], ?_, rfl, htarget, ?_, ?_, by simp, by decide⟩
  · simp [AssignOp.bareWrite]
  · simp [Spaces, mem_runsOf, Text.isBlank]
  · simp [Spaces, mem_runsOf, Text.isBlank]

theorem not_found_bareWrite {op : AssignOp} (h : ¬op.IsKnown) :
    writesGlobalState op.bareWrite = false := by
  cases op with
  | set => exact absurd (.inl rfl) h
  | add => exact absurd (.inr (.inl rfl)) h
  | subtract => exact absurd (.inr (.inr rfl)) h
  | _ => decide +kernel

end Scan

/-! ## Updates -/

namespace Module

/-- A script that was read from the encoding of a text, with targets for its imports or without. -/
def IsScriptOf (m : Module) (text : String) : Prop :=
  SourceKind.ofExtension m.id.extension? = .script ∧
    ∃ path imports, m = { ofSource m.id path text.toUTF8 with imports := imports }

theorem IsScriptOf.hasGlobalState {m : Module} {text : String} (h : m.IsScriptOf text) :
    m.hasGlobalState = Scan.writesGlobalState text := by
  obtain ⟨hkind, path, imports, hm⟩ := h
  rw [hm]
  simp only [ofSource, hkind, Text.Utf8.decode?_toUTF8]

end Module

namespace Scan

/-- No write with the operator is missed. -/
structure Detects (op : AssignOp) : Prop where
  /-- It is found in a script. -/
  found : ∀ source, HoldsWrite op source → writesGlobalState source = true
  /-- An update with a changed script that holds it asks for a full reload. -/
  reloads : ∀ (older newer : ModuleGraph) (hot : Bool) (patterns : List Pattern) (m : Module)
    (source : String), m ∈ newer.modules → m.IsScriptOf source → HoldsWrite op source →
    m.id ∈ (HotUpdate.between older newer hot patterns).changed →
    (HotUpdate.between older newer hot patterns).isFullReload = true

/-- The operators by which no write to the global object is missed are those that are looked for. -/
theorem detects_iff (op : AssignOp) : Detects op ↔ op.IsKnown := by
  constructor
  · intro h
    by_contra hop
    have hfound := h.found _ (holdsWrite_bareWrite op)
    rw [not_found_bareWrite hop] at hfound
    cases hfound
  · intro hop
    refine ⟨fun source => writesGlobalState_of_holdsWrite hop, ?_⟩
    intro older newer hot patterns m source hm hscript hwrite hchanged
    have hwrites : m.hasGlobalState = true :=
      hscript.hasGlobalState.trans (writesGlobalState_of_holdsWrite hop hwrite)
    rw [HotUpdate.isFullReload, Option.isSome_iff_ne_none]
    intro hnone
    obtain ⟨-, -, hisolated⟩ := HotUpdate.reload_eq_none_iff.1 hnone
    have hsafe := (hisolated m.id hchanged).2 m (ModuleGraph.module?_eq_some_iff.2 ⟨hm, rfl⟩)
    rw [hwrites] at hsafe
    cases hsafe

/-- A number at the global object is multiplied in place, and nothing is found. -/
theorem not_found_scaled : HoldsWrite .multiply "window.count *= 2;" ∧
    writesGlobalState "window.count *= 2;" = false := by
  have htarget : "window".toList ++ '.' :: 'c' :: ['o', 'u', 'n', 't'] ∈ Target :=
    property_mem_target (by simp [globalNames]) (by simp [isNameChar, Unicode.isWord])
  refine ⟨⟨[], _, [' '], [' '], ['2', ';'], rfl, rfl, htarget, ?_, ?_, by simp, by decide⟩,
    by decide +kernel⟩
  · simp [Spaces, mem_runsOf, Text.isBlank]
  · simp [Spaces, mem_runsOf, Text.isBlank]

end Scan

end Bindery
