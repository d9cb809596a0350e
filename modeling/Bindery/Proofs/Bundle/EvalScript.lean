import Bindery.Proofs.Bundle.DependencyMap
import Bindery.Proofs.Bundle.ScriptLines
import Bindery.Proofs.Graph.Snapshot

/-!
# Scripts with addressed bodies

Where bodies carry their own addresses, each of them is one line of text in quotes. A definition is
three lines then, whatever stands in the body, and the lines of a script tell what was put into it: who
is defined, what the specifiers mean, what the body is, and who is run.

* `Loader.calls?` : reading what a script asks the table for.
* `ChunkText.body?` : what a module puts into the script of its chunk.
* `ChunkText.addressed_script_read` : the lines of such a script are read back.
-/

namespace Bindery

namespace Loader

variable {id : ModuleId} {dependencies : Json} {body : String} {r : List String}

/-- What a script asks the table for. -/
inductive Call where
  /-- A module comes into the table. -/
  | define (id : String) (dependencies : Json) (body : String)
  /-- A module is run. -/
  | run (id : String)

/-! ## Reading lines -/

/-- The text that stands in quotes between a beginning and an end. -/
def readQuoted? (start ending line : String) : Option String := do
  let rest ← Text.stripStart? start.toList line.toList
  let (text, rest) ← Json.unquote? rest
  if rest = ending.toList then some (String.ofList text) else none

/-- The name and the dependency map in a header line. -/
def readHeader? (line : String) : Option (String × Json) := do
  let rest ← Text.stripStart? headerStart.toList line.toList
  let (id, rest) ← Json.unquote? rest
  let rest ← Text.stripStart? [',', ' '] rest
  let (dependencies, rest) ← Json.readLiteral? rest
  if rest = ", function (module, exports, require) \x7b".toList then
    some (String.ofList id, dependencies)
  else none

/-- What lines ask the table for: a definition takes three of them, and running a module one. -/
def calls? : List String → Option (List Call)
  | [] => some []
  | line :: r =>
    match readQuoted? "__sheaf.require(" ");" line with
    | some id => (calls? r).map (.run id :: ·)
    | none =>
      match r with
      | body :: last :: r => do
        let (id, dependencies) ← readHeader? line
        let text ← readQuoted? "eval(" ");" body
        if last = closing then (calls? r).map (.define id dependencies text :: ·) else none
      | _ => none

theorem readQuoted?_quote (start text ending : String) :
    readQuoted? start ending (start ++ Json.quote text ++ ending) = some text := by
  have hline : (start ++ Json.quote text ++ ending).toList =
      start.toList ++ ((Json.quote text).toList ++ ending.toList) := by
    simp only [String.toList_append, List.append_assoc]
  rw [readQuoted?, hline, Text.stripStart?_append]
  simp only [Json.unquote?_quote, Option.bind_eq_bind, Option.bind_some, String.ofList_toList, if_true]

theorem readHeader?_header (id : ModuleId) {members : List (String × Json)}
    (h : Json.AllTexts members) :
    readHeader? (header id (.obj members)) = some (id.text, .obj members) := by
  have hline : (header id (.obj members)).toList =
      headerStart.toList ++ ((Json.quote id.text).toList ++ ([',', ' '] ++
        ((Json.compact (.obj members)).toList ++
          ", function (module, exports, require) \x7b".toList))) := by
    simp only [header, String.toList_append, List.append_assoc]
    rfl
  rw [readHeader?, hline, Text.stripStart?_append]
  generalize ", function (module, exports, require) \x7b".toList = ending
  simp only [Json.unquote?_quote, Option.bind_eq_bind, Option.bind_some, Text.stripStart?_append,
    Json.readLiteral?_compact h, String.ofList_toList, if_true]

/-- A header line runs no module. -/
theorem readQuoted?_header (id : ModuleId) (dependencies : Json) :
    readQuoted? "__sheaf.require(" ");" (header id dependencies) = none := by
  have hstart : "__sheaf.require(".toList.isPrefixOf (header id dependencies).toList = false := by
    simp [header, headerStart]
    rfl
  rw [readQuoted?, Text.stripStart?, hstart]
  rfl

theorem calls?_bootLine (id : ModuleId) (r : List String) :
    calls? (bootLine id :: r) = (calls? r).map (.run id.text :: ·) := by
  rw [calls?.eq_def]
  unfold bootLine
  simp only [readQuoted?_quote]

theorem append_address (body id : String) :
    body ++ "\n//# sourceURL=" ++ address id = body ++ "\n//# sourceURL=sheaf:///" ++ id := by
  have hcomment : "\n//# sourceURL=sheaf:///" = "\n//# sourceURL=" ++ "sheaf:///" := by decide
  simp only [address, hcomment, String.append_assoc]

/-- The three lines of a definition are read, and then what follows them. -/
theorem calls?_definition (id : ModuleId) {members : List (String × Json)} (h : Json.AllTexts members)
    (body : String) (r : List String) :
    calls? (header id (.obj members) :: addressedLine id body :: closing :: r) =
      (calls? r).map
        (.define id.text (.obj members) (body ++ "\n//# sourceURL=sheaf:///" ++ id.text) :: ·) := by
  rw [calls?, readQuoted?_header]
  simp [readHeader?_header id h, addressedLine, readQuoted?_quote, append_address]

end Loader

namespace ChunkText

variable {p : Profile} {s : Settings} {g : ModuleGraph} {outputs : ModuleOutputs} {c : Chunk}
  {script : String}

/-! ## What a script is made of -/

/-- What a module puts into the script of its chunk. Copies put nothing there, and neither do style
sheets that are kept out of scripts. -/
def body? (p : Profile) (outputs : ModuleOutputs) (id : ModuleId) : Option String :=
  match outputs.get? id with
  | some (.code .script code) =>
    some (Text.replace code "process.env.NODE_ENV" (Json.quote p.mode.name))
  | some (.code .style code) =>
    if p.has .extractCss then none else some (Engine.injectStyle id code)
  | _ => none

/-- The members of a chunk that are in its script, in their order. -/
def scripted (p : Profile) (outputs : ModuleOutputs) (ids : List ModuleId) :
    List (ModuleId × String) :=
  ids.filterMap fun id => (body? p outputs id).map (id, ·)

theorem bodies_parts_ofProfile (p : Profile) (outputs : ModuleOutputs) (ids : List ModuleId) :
    bodies (parts (.ofProfile p) outputs ids) = scripted p outputs ids := by
  rw [bodies, parts, List.filterMap_filterMap, scripted]
  refine List.filterMap_congr ?_
  intro id _
  unfold body?
  cases houtput : outputs.get? id with
  | none => rfl
  | some output =>
    cases output with
    | asset file bytes => rfl
    | code kind code =>
      cases kind with
      | script => rfl
      | style =>
        by_cases hkept : p.has .extractCss = true
        · simp [part, Settings.ofProfile, hkept]
        · simp [part, Settings.ofProfile, hkept]

/-- The three lines of a definition whose body carries its address. -/
def addressedBlock (g : ModuleGraph) (b : ModuleId × String) : List String :=
  [headerLine g b, Loader.addressedLine b.1 b.2, Loader.closing]

/-- The lines of a script behind those that set up the table. -/
def addressedLines (p : Profile) (g : ModuleGraph) (outputs : ModuleOutputs) (c : Chunk) :
    List String :=
  (scripted p outputs c.modules).flatMap (addressedBlock g) ++ (roots g c).map Loader.bootLine

theorem block_eq_addressedBlock (h : s.addressed = true) (g : ModuleGraph) (b : ModuleId × String) :
    block s g b = addressedBlock g b := by
  rw [block, behindHeader, printed, if_pos h, Loader.linesOf_addressed]
  rfl

theorem definition_eq_unlines (h : s.addressed = true) (g : ModuleGraph) (b : ModuleId × String) :
    definition s g b.1 b.2 = Text.unlines (addressedBlock g b) := by
  rw [definition, if_pos h, Loader.definition, Loader.addressed_eq]
  simp [Text.unlines, addressedBlock, headerLine, String.append_assoc]

/-- What is put into a script is read back from its lines. -/
theorem calls?_addressedLines (p : Profile) (g : ModuleGraph) (outputs : ModuleOutputs) (c : Chunk) :
    Loader.calls? (addressedLines p g outputs c) =
      some ((scripted p outputs c.modules).map (fun b => .define b.1.text (dependencyMap g b.1)
          (b.2 ++ "\n//# sourceURL=sheaf:///" ++ b.1.text)) ++
        (roots g c).map fun id => .run id.text) := by
  have hboots : ∀ ids : List ModuleId,
      Loader.calls? (ids.map Loader.bootLine) = some (ids.map fun id => .run id.text) := by
    intro ids
    induction ids with
    | nil => rfl
    | cons id r ih => rw [List.map_cons, Loader.calls?_bootLine, ih, Option.map_some, List.map_cons]
  rw [addressedLines]
  induction scripted p outputs c.modules with
  | nil => exact hboots (roots g c)
  | cons b r ih =>
    obtain ⟨members, hmap, htexts⟩ := exists_dependencyMap_eq g b.1
    have hread := Loader.calls?_definition b.1 htexts b.2
      (r.flatMap (addressedBlock g) ++ (roots g c).map Loader.bootLine)
    rw [← hmap, ih, Option.map_some] at hread
    exact hread

/-- Where bodies carry their own addresses, the script of a chunk is the lines that set up the table,
three lines for each member that is in the script, and a line for each root. These lines are read back:
the id of each member, the map that says what its specifiers mean, its body with its address behind it,
and the ids of the roots. -/
theorem addressed_script_read (hmap : p.sourceMap = .evalSourceMap)
    (hscript : (ofChunk (.ofProfile p) g outputs c).script = some script) :
    script = Text.unlines (Loader.preludeLines ++ addressedLines p g outputs c) ∧
      Text.linesOf script = Loader.preludeLines ++ addressedLines p g outputs c ∧
      (addressedLines p g outputs c).length =
        3 * (scripted p outputs c.modules).length + (roots g c).length ∧
      Loader.calls? (addressedLines p g outputs c) =
        some ((scripted p outputs c.modules).map (fun b => .define b.1.text (dependencyMap g b.1)
            (b.2 ++ "\n//# sourceURL=sheaf:///" ++ b.1.text)) ++
          (roots g c).map fun id => .run id.text) ∧
      ∀ b ∈ scripted p outputs c.modules, Tells g b.1 (dependencyMap g b.1) := by
  have haddressed : (Settings.ofProfile p).addressed = true := by rw [Settings.ofProfile, hmap]; rfl
  have hbodies := bodies_parts_ofProfile p outputs c.modules
  have hblocks : block (.ofProfile p) g = addressedBlock g :=
    funext fun b => block_eq_addressedBlock haddressed g b
  refine ⟨?_, ?_, ?_, calls?_addressedLines p g outputs c, fun b _ => tells_dependencyMap g b.1⟩
  · have hboots : String.join ((roots g c).map Loader.boot) =
        Text.unlines ((roots g c).map Loader.bootLine) := by
      rw [Text.unlines, List.map_map]
      exact congrArg String.join (List.map_congr_left fun id _ => Loader.boot_eq id)
    have hdefinitions : String.join ((scripted p outputs c.modules).map fun b =>
        definition (.ofProfile p) g b.1 b.2) =
        Text.unlines ((scripted p outputs c.modules).flatMap (addressedBlock g)) := by
      simp only [Text.unlines_flatMap, definition_eq_unlines haddressed]
    rw [script_eq hscript, definitions, hbodies, hdefinitions, hboots, addressedLines,
      Text.unlines_append, Text.unlines_append, Loader.prelude]
  · rw [linesOf_script hscript, hbodies, hblocks, addressedLines]
  · have hthree : ∀ b, (addressedBlock g b).length = 3 := fun _ => rfl
    simp [addressedLines, List.length_flatMap, hthree, Nat.mul_comm]

/-! ## A specifier that is imported twice -/

/-- A page of one script that imports a specifier twice, and of the two that it has meant. -/
def twicePage : ModuleGraph :=
  .ofModules [("main", [⟨"a\"\n.js"⟩])]
    [Module.draft "a\"\n.js" "a" [⟨"./x\\", .static, some ⟨"b.js"⟩⟩, ⟨"./x\\", .dynamic, some ⟨"c.js"⟩⟩,
        ⟨"./y", .static, none⟩],
      Module.draft "b.js" "b" [], Module.draft "c.js" "c" []]

def twiceOutputs : ModuleOutputs :=
  [(⟨"a\"\n.js"⟩, .code .script "log(\"\\u0041\");\n\x7d);\n"), (⟨"b.js"⟩, .asset "b.js" ByteArray.empty)]

def twiceChunk : Chunk :=
  { name := "main", kind := .initial, entry := some "main", group := none
    modules := [⟨"a\"\n.js"⟩, ⟨"b.js"⟩], size := 2 }

/-- The body holds what looks like a closing line, and is read back all the same. The specifier means
what it was last imported as, and one that means nothing is left out. -/
theorem addressed_script_read_twicePage :
    let p : Profile := .ofLayer { sourceMap := some .evalSourceMap } .production {}
    p.sourceMap = .evalSourceMap ∧ ∃ script members,
      (ofChunk (.ofProfile p) twicePage twiceOutputs twiceChunk).script = some script ∧
        Loader.calls? ((Text.linesOf script).drop Loader.preludeLines.length) =
          some [.define "a\"\n.js" (.obj members)
              "log(\"\\u0041\");\n\x7d);\n\n//# sourceURL=sheaf:///a\"\n.js",
            .run "a\"\n.js"] ∧
        members.lookup "./x\\" = some (.str "c.js") ∧ members.lookup "./y" = none := by
  intro p
  have hmap : p.sourceMap = .evalSourceMap := by decide
  have hsome : (ofChunk (.ofProfile p) twicePage twiceOutputs twiceChunk).script.isSome = true := by
    decide
  have hscripted : scripted p twiceOutputs twiceChunk.modules =
      [(⟨"a\"\n.js"⟩, "log(\"\\u0041\");\n\x7d);\n")] := by decide
  have hroots : roots twicePage twiceChunk = [⟨"a\"\n.js"⟩] := by decide
  obtain ⟨script, hscript⟩ := Option.isSome_iff_exists.1 hsome
  obtain ⟨-, hlines, -, hcalls, htells⟩ := addressed_script_read hmap hscript
  rw [hscripted] at hcalls htells
  rw [hroots] at hcalls
  obtain ⟨members, hobj, -, hlookup⟩ := htells _ (List.mem_singleton_self _)
  have htwice : meaning? twicePage ⟨"a\"\n.js"⟩ "./x\\" = some ⟨"c.js"⟩ := by decide
  have hnone : meaning? twicePage ⟨"a\"\n.js"⟩ "./y" = none := by decide
  refine ⟨hmap, script, members, hscript, ?_, ?_, ?_⟩
  · rw [hlines, List.drop_left, hcalls, List.map_singleton, hobj]
    rfl
  · rw [hlookup, htwice, Option.map_some]
  · rw [hlookup, hnone, Option.map_none]

end ChunkText

end Bindery
