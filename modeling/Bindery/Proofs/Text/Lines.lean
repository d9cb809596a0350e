import Bindery.Text.Lines

/-!
# The lines of joined texts

The lines of a text that ends in a line feed are not changed by what follows, so texts that end in line
feeds can be joined and their lines with them.

* `Text.Whole` : a text of whole lines.
* `Text.Whole.linesOf_append`, `Text.linesOf_join_append` : the lines of joined texts.
* `Text.linesOf_terminated`, `Text.linesOf_unlines` : lines that are written are read back.
-/

namespace Bindery

namespace Text

variable {line : List Char} {text : String}

/-- A text without the separator is one stretch. -/
theorem splitOn_of_notMem {c : Char} {cs : List Char} (h : c ∉ cs) : cs.splitOn c = [cs] := by
  refine List.splitOnP_eq_singleton ?_
  intro x hx
  rw [beq_eq_false_iff_ne]
  rintro rfl
  exact h hx

/-- A text of whole lines: where there is any, the last one is ended as well. -/
def Whole (text : String) : Prop := text = "" ∨ ∃ start, text = start ++ "\n"

/-- What ends in a line feed has whole lines, whatever comes before. -/
theorem whole_append_lineFeed (start : String) : Whole (start ++ "\n") := .inr ⟨start, rfl⟩

theorem lines_of_splitOn {cs last : List Char} {init : List (List Char)}
    (h : cs.splitOn '\n' = init ++ [last]) :
    lines cs = init.map dropCarriageReturn ++ if last.isEmpty then [] else [last] := by
  simp only [lines, h, List.reverse_append, List.reverse_singleton, List.singleton_append,
    List.reverse_reverse]
  split
  · rw [List.append_nil]
  · rfl

/-- A text is read up to a line feed as it is without what follows. -/
theorem lines_append_lineFeed (start rest : List Char) :
    lines (start ++ '\n' :: rest) =
      (start.splitOn '\n').map dropCarriageReturn ++ lines rest := by
  obtain ⟨init, last, hrest⟩ : ∃ init last, rest.splitOn '\n' = init ++ [last] :=
    ⟨_, _, (List.dropLast_concat_getLast (List.splitOn_ne_nil '\n' rest)).symm⟩
  have hwhole : (start ++ '\n' :: rest).splitOn '\n' = (start.splitOn '\n' ++ init) ++ [last] := by
    rw [List.splitOn_append_cons_self, hrest, List.append_assoc]
  rw [lines_of_splitOn hwhole, lines_of_splitOn hrest, List.map_append, List.append_assoc]

theorem linesOf_append_lineFeed (start rest : String) :
    linesOf (start ++ "\n" ++ rest) = linesOf (start ++ "\n") ++ linesOf rest := by
  have hsplit : (start ++ "\n" ++ rest).toList = start.toList ++ '\n' :: rest.toList := by simp
  have hend : (start ++ "\n").toList = start.toList ++ '\n' :: [] := by simp
  have hnone : lines [] = [] := rfl
  simp only [linesOf, hsplit, hend, lines_append_lineFeed, hnone, List.map_append,
    List.append_nil]

theorem Whole.linesOf_append (h : Whole text) (rest : String) :
    linesOf (text ++ rest) = linesOf text ++ linesOf rest := by
  rcases h with rfl | ⟨start, rfl⟩
  · rw [String.empty_append]
    rfl
  · exact linesOf_append_lineFeed start rest

theorem Whole.append {rest : String} (h : Whole text) (hrest : Whole rest) : Whole (text ++ rest) := by
  rcases hrest with rfl | ⟨start, rfl⟩
  · rwa [String.append_empty]
  · rw [← String.append_assoc]
    exact whole_append_lineFeed _

/-- Texts of whole lines have their lines one behind the other. -/
theorem linesOf_join_append {texts : List String} (h : ∀ text ∈ texts, Whole text) (rest : String) :
    linesOf (String.join texts ++ rest) = texts.flatMap linesOf ++ linesOf rest := by
  induction texts with
  | nil =>
    rw [String.join_nil, String.empty_append]
    rfl
  | cons text r ih =>
    obtain ⟨hfirst, hrest⟩ := List.forall_mem_cons.1 h
    rw [String.join_cons, String.append_assoc, hfirst.linesOf_append, ih hrest, List.flatMap_cons,
      List.append_assoc]

/-- A line that ends in no carriage return is read as it is. -/
theorem linesOf_terminated (hline : '\n' ∉ text.toList) (hend : text.toList.getLast? ≠ some '\r') :
    linesOf (text ++ "\n") = [text] := by
  have hsplit := splitOn_of_notMem hline
  have htext : (text ++ "\n").toList = text.toList ++ '\n' :: [] := by simp
  have hnone : lines [] = [] := rfl
  simp [linesOf, htext, lines_append_lineFeed, hsplit, dropCarriageReturn, hend, hnone]

theorem unlines_cons (l : String) (ls : List String) :
    unlines (l :: ls) = l ++ "\n" ++ unlines ls :=
  String.join_cons

theorem unlines_append (ls more : List String) : unlines (ls ++ more) = unlines ls ++ unlines more := by
  rw [unlines, List.map_append, String.join_append, unlines, unlines]

theorem unlines_flatMap {α : Type} (f : α → List String) (xs : List α) :
    unlines (xs.flatMap f) = String.join (xs.map fun x => unlines (f x)) := by
  induction xs with
  | nil => rfl
  | cons x r ih => rw [List.flatMap_cons, unlines_append, ih, List.map_cons, String.join_cons]

theorem whole_unlines (ls : List String) : Whole (unlines ls) := by
  induction ls with
  | nil => exact .inl rfl
  | cons l r ih =>
    rw [unlines_cons]
    exact (whole_append_lineFeed l).append ih

/-- Lines that are written out are checked by their characters, one line after the other. -/
theorem forall_mem_ofList_cons {P : List Char → Prop} {cs : List Char} {ls : List String} (h : P cs)
    (hrest : ∀ l ∈ ls, P l.toList) : ∀ l ∈ String.ofList cs :: ls, P l.toList := by
  rw [List.forall_mem_cons, String.toList_ofList]
  exact ⟨h, hrest⟩

/-- Lines that are written one behind the other are read back. -/
theorem linesOf_unlines {ls : List String}
    (h : ∀ l ∈ ls, '\n' ∉ l.toList ∧ l.toList.getLast? ≠ some '\r') : linesOf (unlines ls) = ls := by
  induction ls with
  | nil => rfl
  | cons l r ih =>
    obtain ⟨⟨hline, hend⟩, hrest⟩ := List.forall_mem_cons.1 h
    rw [unlines_cons, linesOf_append_lineFeed, linesOf_terminated hline hend, ih hrest,
      List.singleton_append]

end Text

end Bindery
