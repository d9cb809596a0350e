import Mathlib.Data.List.Basic
import Bindery.Proofs.Bundle.ChunkText
import Bindery.Proofs.Json.Literal
import Bindery.Proofs.Text.Lines

/-!
# The lines of a script

A script is the lines that set up the table, then for each of its modules a header line, the lines of its
body and a closing line, and then a line for each root. What is quoted in these lines breaks none of
them, so they are read back as they were written.

* `ChunkText.block`, `Loader.bootLine` : the lines of a definition, and the line that runs a root.
* `ChunkText.linesOf_script` : the lines of the script of a chunk.
* `Loader.headerId?_header`, `Loader.headerId?_eq_none` : which lines name a module.
-/

namespace Bindery

/-- No line that calls the table begins with a blank. -/
theorem Text.trimStart_of_head? {line : String} (h : line.toList.head? = some '_') :
    trimStart line.toList = line.toList := by
  rw [trimStart_eq_self_iff]
  intro c hc
  obtain rfl : '_' = c := Option.some.inj (h.symm.trans hc)
  decide

namespace Loader

variable {id : ModuleId} {dependencies : Json} {line : String}

/-! ## Header lines -/

/-- The line begins like a header line, blanks in front of it aside. -/
def Heads (line : String) : Prop := headerStart.toList <+: Text.trimStart line.toList

instance (line : String) : Decidable (Heads line) :=
  inferInstanceAs (Decidable (headerStart.toList <+: Text.trimStart line.toList))

theorem not_heads_of_head? (h : (Text.trimStart line.toList).head? ≠ some '_') : ¬Heads line := by
  rintro ⟨behind, hline⟩
  rw [← hline] at h
  exact h rfl

theorem headerId?_eq_none (h : ¬Heads line) : headerId? line.toList = none := by
  have hstart : headerStart.toList.isPrefixOf (Text.trimStart line.toList) = false := by
    rw [← Bool.not_eq_true, List.isPrefixOf_iff_prefix]
    exact h
  simp [headerId?, Text.stripStart?, hstart]

/-- A header line names its module, whatever the module is called. -/
theorem headerId?_header (id : ModuleId) (dependencies : Json) :
    headerId? (header id dependencies).toList = some id.text := by
  obtain ⟨behind, htext⟩ : ∃ behind, (header id dependencies).toList =
      headerStart.toList ++ ((Json.quote id.text).toList ++ behind) := by
    refine ⟨(", " ++ dependencies.compact ++ ", function (module, exports, require) \x7b").toList, ?_⟩
    simp only [header, String.toList_append, List.append_assoc]
  have htrim : Text.trimStart (header id dependencies).toList = (header id dependencies).toList :=
    Text.trimStart_of_head? (by simp [htext, headerStart])
  have hquote : ((Json.quote id.text).toList ++ behind).dropWhile
      (fun c => c = ' ' || c = '\n' || c = '\t' || c = '\r') = (Json.quote id.text).toList ++ behind := by
    rw [Json.toList_quote, Json.quoteChars, List.cons_append, List.cons_append]
    rfl
  rw [headerId?, htrim, htext, Text.stripStart?_append]
  simp [hquote, Json.unquote?_quote]

/-! ## Written lines -/

theorem linesOf_prelude : Text.linesOf prelude = preludeLines := by
  refine Text.linesOf_unlines ?_
  unfold preludeLines
  repeat
    refine Text.forall_mem_ofList_cons
      (P := fun cs => '\n' ∉ cs ∧ cs.getLast? ≠ some '\r') (by decide +kernel) ?_
  exact List.forall_mem_nil _

theorem whole_terminated (text : String) : Text.Whole (terminated text) := by
  unfold terminated
  split
  · next hend =>
    obtain ⟨start, hstart⟩ := List.getLast?_eq_some_iff.1 hend
    exact .inr ⟨String.ofList start, String.toList_inj.1 (by simp [hstart])⟩
  · exact Text.whole_append_lineFeed text

/-- A header line is one line. -/
theorem linesOf_header (id : ModuleId) {members : List (String × Json)} (h : Json.AllTexts members) :
    Text.linesOf (header id (.obj members) ++ "\n") = [header id (.obj members)] := by
  refine Text.linesOf_terminated ?_ ?_
  · simp only [header, headerStart, String.toList_append, List.mem_append, not_or]
    exact ⟨⟨⟨⟨by decide, Json.lineFeed_notMem_quote id.text⟩, by decide⟩,
      Json.lineFeed_notMem_compact h⟩, by decide⟩
  · rw [header, String.toList_append, List.getLast?_append_of_ne_nil _ (by decide)]
    decide

/-- The line of a body that carries its own address. -/
def addressedLine (id : ModuleId) (body : String) : String :=
  "eval(" ++ Json.quote (body ++ "\n//# sourceURL=" ++ address id.text) ++ ");"

theorem addressed_eq (id : ModuleId) (body : String) :
    addressed id body = addressedLine id body ++ "\n" := by
  have hend : ");\n" = ");" ++ "\n" := by decide
  rw [addressed, hend, ← String.append_assoc, addressedLine]

theorem linesOf_addressed (id : ModuleId) (body : String) :
    Text.linesOf (addressed id body) = [addressedLine id body] := by
  rw [addressed_eq]
  refine Text.linesOf_terminated ?_ ?_
  · simp only [addressedLine, String.toList_append, List.mem_append, not_or]
    exact ⟨⟨by decide, Json.lineFeed_notMem_quote _⟩, by decide⟩
  · rw [addressedLine, String.toList_append, List.getLast?_append_of_ne_nil _ (by decide)]
    decide

/-- The line that runs a module. -/
def bootLine (id : ModuleId) : String := "__sheaf.require(" ++ Json.quote id.text ++ ");"

theorem boot_eq (id : ModuleId) : boot id = bootLine id ++ "\n" := by
  have hend : ");\n" = ");" ++ "\n" := by decide
  calc boot id = "__sheaf.require(" ++ Json.quote id.text ++ (");" ++ "\n") :=
        congrArg (fun text => "__sheaf.require(" ++ Json.quote id.text ++ text) hend
    _ = bootLine id ++ "\n" := String.append_assoc.symm

theorem toList_bootLine (id : ModuleId) : (bootLine id).toList =
    "__sheaf.require(".toList ++ (Json.quote id.text).toList ++ ");".toList := by
  unfold bootLine
  rw [String.toList_append, String.toList_append]

theorem linesOf_boot (id : ModuleId) : Text.linesOf (boot id) = [bootLine id] := by
  rw [boot_eq]
  refine Text.linesOf_terminated ?_ ?_
  · simp only [toList_bootLine, List.mem_append, not_or]
    exact ⟨⟨by decide, Json.lineFeed_notMem_quote _⟩, by decide⟩
  · rw [toList_bootLine, List.getLast?_append_of_ne_nil _ (by decide)]
    decide

end Loader

namespace ChunkText

variable {s : Settings} {g : ModuleGraph} {outputs : ModuleOutputs} {c : Chunk} {script : String}

/-- What stands between the header line and the closing line of a definition. -/
def printed (s : Settings) (b : ModuleId × String) : String :=
  if s.addressed then Loader.addressed b.1 b.2 else Loader.terminated b.2

/-- The header line of a definition. -/
def headerLine (g : ModuleGraph) (b : ModuleId × String) : String :=
  Loader.header b.1 (dependencyMap g b.1)

/-- The lines of a definition behind its header line. -/
def behindHeader (s : Settings) (b : ModuleId × String) : List String :=
  Text.linesOf (printed s b) ++ [Loader.closing]

/-- The lines of a definition. -/
def block (s : Settings) (g : ModuleGraph) (b : ModuleId × String) : List String :=
  headerLine g b :: behindHeader s b

/-- A dependency map has texts only. -/
theorem exists_dependencyMap_eq (g : ModuleGraph) (id : ModuleId) :
    ∃ members, dependencyMap g id = .obj members ∧ Json.AllTexts members := by
  refine ⟨_, rfl, ?_⟩
  intro m hm
  rcases Json.mem_sortMembers hm with hnone | ⟨x, hx, rfl⟩
  · cases hnone
  · obtain ⟨i, -, hresolved⟩ := List.mem_filterMap.1 hx
    obtain ⟨t, -, rfl⟩ := Option.map_eq_some_iff.1 hresolved
    exact ⟨t.text, rfl⟩

theorem whole_printed (s : Settings) (b : ModuleId × String) : Text.Whole (printed s b) := by
  unfold printed
  split
  · rw [Loader.addressed_eq]
    exact Text.whole_append_lineFeed _
  · exact Loader.whole_terminated b.2

theorem linesOf_definition (s : Settings) (g : ModuleGraph) (b : ModuleId × String) :
    Text.linesOf (definition s g b.1 b.2) = block s g b := by
  obtain ⟨members, hmap, htexts⟩ := exists_dependencyMap_eq g b.1
  have htext : definition s g b.1 b.2 =
      headerLine g b ++ "\n" ++ (printed s b ++ (Loader.closing ++ "\n")) := by
    simp only [definition, Loader.definition, headerLine, printed, String.append_assoc]
  have hclosing : Text.linesOf (Loader.closing ++ "\n") = [Loader.closing] := by decide +kernel
  have hheader : Text.linesOf (headerLine g b ++ "\n") = [headerLine g b] := by
    rw [headerLine, hmap]
    exact Loader.linesOf_header b.1 htexts
  rw [htext, Text.linesOf_append_lineFeed, hheader, (whole_printed s b).linesOf_append, hclosing]
  rfl

/-- The text of a script: the lines that set up the table, the definitions and the roots. -/
theorem script_eq (h : (ofChunk s g outputs c).script = some script) :
    script = Loader.prelude ++ (String.join (definitions s g outputs c) ++
      String.join ((roots g c).map Loader.boot)) :=
  (Option.some.inj (Option.ite_none_right_eq_some.1 h).2).symm

/-- The lines of a script: those that set up the table, the definitions and the roots. -/
theorem linesOf_script (h : (ofChunk s g outputs c).script = some script) :
    Text.linesOf script = Loader.preludeLines ++
      ((bodies (parts s outputs c.modules)).flatMap (block s g) ++ (roots g c).map Loader.bootLine) := by
  have htext : script = Loader.prelude ++ (String.join (definitions s g outputs c) ++
      (String.join ((roots g c).map Loader.boot) ++ "")) := by
    rw [String.append_empty]
    exact script_eq h
  have hdefinitions : ∀ text ∈ definitions s g outputs c, Text.Whole text := by
    intro text htext
    obtain ⟨b, -, rfl⟩ := List.mem_map.1 htext
    exact Text.whole_append_lineFeed _
  have hboots : ∀ text ∈ (roots g c).map Loader.boot, Text.Whole text := by
    intro text htext
    obtain ⟨id, -, rfl⟩ := List.mem_map.1 htext
    rw [Loader.boot_eq]
    exact Text.whole_append_lineFeed _
  have hnone : Text.linesOf "" = [] := rfl
  have hprelude : Text.Whole Loader.prelude := Text.whole_unlines Loader.preludeLines
  rw [htext, hprelude.linesOf_append, Loader.linesOf_prelude,
    Text.linesOf_join_append hdefinitions, Text.linesOf_join_append hboots, hnone, List.append_nil,
    definitions, List.flatMap_map, List.flatMap_map]
  simp only [linesOf_definition, Loader.linesOf_boot, List.map_eq_flatMap]

end ChunkText

end Bindery
