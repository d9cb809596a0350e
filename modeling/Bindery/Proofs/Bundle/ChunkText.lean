import Bindery.Bundle.ChunkText
import Bindery.Proofs.Graph.Load

/-!
# What a script defines

The script of a chunk defines those of its modules that became scripts, and each definition carries
the targets of the imports that have one.

* `Defines` : a module of a chunk is defined in the script of the chunk.
* `script_ofChunk`, `exists_definition_of_defines` : the definition is in the text of the script.
* `defines_or_leftOut` : only copies, and style sheets that are kept out, are not defined.
* `mem_targets_of_names` : what a dependency map names are targets of imports.
-/

namespace Bindery

namespace Json

variable {key : String} {value : Json} {m : String × Json} {members done : List (String × Json)}

theorem mem_insertKey (h : m ∈ insertKey key value members) : m = (key, value) ∨ m ∈ members := by
  induction members with
  | nil => exact .inl (List.mem_singleton.1 h)
  | cons x r ih =>
    unfold insertKey at h
    split at h
    · exact List.mem_cons.1 h
    · split at h
      · exact (List.mem_cons.1 h).imp_right (List.mem_cons_of_mem _)
      · rcases List.mem_cons.1 h with h | h
        · exact .inr (h ▸ List.mem_cons_self)
        · exact (ih h).imp_right (List.mem_cons_of_mem _)

/-- Sorting the members adds none. -/
theorem mem_sortMembers (h : m ∈ sortMembers done members) :
    m ∈ done ∨ ∃ x ∈ members, m = (x.1, x.2.sortKeys) := by
  induction members generalizing done with
  | nil => exact .inl (by simpa only [sortMembers] using h)
  | cons x r ih =>
    simp only [sortMembers] at h
    rcases ih h with h | ⟨y, hy, rfl⟩
    · rcases mem_insertKey h with rfl | h
      · exact .inr ⟨x, List.mem_cons_self, rfl⟩
      · exact .inl h
    · exact .inr ⟨y, List.mem_cons_of_mem _ hy, rfl⟩

end Json

namespace ChunkText

variable {s : Settings} {g : ModuleGraph} {outputs : ModuleOutputs} {c : Chunk} {id t : ModuleId}

/-! ## Definitions -/

/-- The script of a chunk defines a module. -/
def Defines (s : Settings) (outputs : ModuleOutputs) (c : Chunk) (id : ModuleId) : Prop :=
  id ∈ (bodies (parts s outputs c.modules)).map (·.1)

instance : Decidable (Defines s outputs c id) :=
  inferInstanceAs (Decidable (id ∈ (bodies (parts s outputs c.modules)).map (·.1)))

/-- What becomes of an output outside of scripts: copies are files of their own, and so are style
sheets that are kept out. -/
def isOutside (s : Settings) : ModuleOutput → Bool
  | .asset _ _ => true
  | .code .style _ => s.extractStyles
  | .code .script _ => false

/-- No script defines the module, since it became a copy or a style sheet that is kept out. -/
def LeftOut (s : Settings) (outputs : ModuleOutputs) (id : ModuleId) : Prop :=
  (outputs.get? id).any (isOutside s) = true

instance : Decidable (LeftOut s outputs id) :=
  inferInstanceAs (Decidable ((outputs.get? id).any (isOutside s) = true))

theorem leftOut_of_asset {file : String} {bytes : ByteArray}
    (h : outputs.get? id = some (.asset file bytes)) : LeftOut s outputs id := by
  rw [LeftOut, h, Option.any_some, isOutside]

theorem mem_parts {ids : List ModuleId} {made : Part} :
    (id, made) ∈ parts s outputs ids ↔
      id ∈ ids ∧ ∃ kind code, outputs.get? id = some (.code kind code) ∧
        part s id kind code = made := by
  rw [parts, List.mem_filterMap]
  constructor
  · rintro ⟨x, hx, hpart⟩
    split at hpart
    · next kind code houtput =>
      rcases Prod.mk.inj (Option.some.inj hpart) with ⟨rfl, hmade⟩
      exact ⟨hx, kind, code, houtput, hmade⟩
    · simp at hpart
  · rintro ⟨hid, kind, code, houtput, rfl⟩
    exact ⟨id, hid, by simp only [houtput]⟩

theorem mem_bodies {made : List (ModuleId × Part)} {body : String} :
    (id, body) ∈ bodies made ↔ (id, .script body) ∈ made := by
  rw [bodies, List.mem_filterMap]
  constructor
  · rintro ⟨⟨x, _⟩, hx, hbody⟩
    split at hbody
    · next heq =>
      rcases Prod.mk.inj (Option.some.inj hbody) with ⟨rfl, rfl⟩
      exact heq ▸ hx
    · simp at hbody
  · exact fun h => ⟨_, h, rfl⟩

/-- Code becomes a body unless it is a style sheet that is kept out. -/
theorem exists_body_iff (id : ModuleId) {kind : ContentKind} {code : String} :
    (∃ body, part s id kind code = .script body) ↔ isOutside s (.code kind code) = false := by
  cases kind with
  | script => simp [part, isOutside]
  | style =>
    cases hkept : s.extractStyles with
    | true => simp [part, isOutside, hkept]
    | false => simp [part, isOutside, hkept]

/-- A chunk defines those of its modules that stay in scripts. -/
theorem defines_iff : Defines s outputs c id ↔
    id ∈ c.modules ∧ ∃ output, outputs.get? id = some output ∧ isOutside s output = false := by
  constructor
  · intro h
    rcases List.mem_map.1 h with ⟨⟨_, body⟩, hbody, rfl⟩
    rcases mem_parts.1 (mem_bodies.1 hbody) with ⟨hid, kind, code, houtput, hmade⟩
    exact ⟨hid, _, houtput, (exists_body_iff _).1 ⟨body, hmade⟩⟩
  · rintro ⟨hid, output, houtput, hinside⟩
    cases output with
    | asset file bytes => simp [isOutside] at hinside
    | code kind code =>
      rcases (exists_body_iff id).2 hinside with ⟨body, hbody⟩
      have hpart := mem_parts.2 ⟨hid, kind, code, houtput, hbody⟩
      exact List.mem_map.2 ⟨(id, body), mem_bodies.2 hpart, rfl⟩

/-- A module of a chunk is defined there unless it is left out of all scripts. -/
theorem defines_or_leftOut (hid : id ∈ c.modules) (houtput : (outputs.get? id).isSome = true) :
    Defines s outputs c id ∨ LeftOut s outputs id := by
  rcases Option.isSome_iff_exists.1 houtput with ⟨output, houtput⟩
  rw [defines_iff, LeftOut, houtput, Option.any_some]
  cases houtside : isOutside s output with
  | true => exact .inr rfl
  | false => exact .inl ⟨hid, output, rfl, houtside⟩

theorem not_defines_of_leftOut (h : LeftOut s outputs id) : ¬Defines s outputs c id := by
  rintro hdefines
  rcases defines_iff.1 hdefines with ⟨-, output, houtput, hinside⟩
  rw [LeftOut, houtput, Option.any_some, hinside] at h
  exact absurd h Bool.false_ne_true

theorem definition_ne_empty (s : Settings) (g : ModuleGraph) (id : ModuleId) (body : String) :
    definition s g id body ≠ "" := by
  intro h
  have htext := congrArg String.toList h
  simp [definition, Loader.definition, Loader.header, Loader.headerStart] at htext

/-- The definitions in the script of a chunk, in order. -/
def definitions (s : Settings) (g : ModuleGraph) (outputs : ModuleOutputs) (c : Chunk) :
    List String :=
  (bodies (parts s outputs c.modules)).map fun b => definition s g b.1 b.2

/-- A script that defines something is the table, its definitions and the lines that run the
roots. -/
theorem script_ofChunk (h : definitions s g outputs c ≠ []) :
    (ofChunk s g outputs c).script =
      some (Loader.prelude ++ (String.join (definitions s g outputs c)
        ++ String.join ((roots g c).map Loader.boot))) := by
  have hne : (String.join (definitions s g outputs c)
      ++ String.join ((roots g c).map Loader.boot) != "") = true := by
    cases hbodies : bodies (parts s outputs c.modules) with
    | nil => simp [definitions, hbodies] at h
    | cons b r => simp [definitions, hbodies, definition_ne_empty]
  have hscript : (ofChunk s g outputs c).script =
      if (String.join (definitions s g outputs c)
          ++ String.join ((roots g c).map Loader.boot) != "" || c.isEntry) = true then
        some (Loader.prelude ++ (String.join (definitions s g outputs c)
          ++ String.join ((roots g c).map Loader.boot)))
      else none := rfl
  rw [hscript, hne, Bool.true_or, if_pos rfl]

/-- The definition of a module is in the script that defines it. -/
theorem exists_definition_of_defines (g : ModuleGraph) (h : Defines s outputs c id) :
    ∃ body, definition s g id body ∈ definitions s g outputs c := by
  rcases List.mem_map.1 h with ⟨⟨_, body⟩, hbody, rfl⟩
  exact ⟨body, List.mem_map.2 ⟨_, hbody, rfl⟩⟩

/-! ## Dependency maps -/

/-- The dependency map of a module says that a specifier means a target. -/
def Names (g : ModuleGraph) (id t : ModuleId) : Prop :=
  ∃ specifier, ((dependencyMap g id).get? specifier).bind Json.str? = some t.text

/-- What a dependency map names are targets of imports. -/
theorem mem_targets_of_names (h : Names g id t) : ∃ m, g.module? id = some m ∧ t ∈ m.targets := by
  rcases h with ⟨specifier, hmeans⟩
  rcases Option.bind_eq_some_iff.1 hmeans with ⟨value, hget, htext⟩
  simp only [dependencyMap, Json.sortKeys, Json.get?] at hget
  rcases List.lookup_eq_some_iff.1 hget with ⟨_, _, hmembers, -⟩
  have hmem := List.mem_reverse.1 (hmembers ▸ List.mem_append_right _ List.mem_cons_self)
  rcases Json.mem_sortMembers hmem with hnone | ⟨x, hx, heq⟩
  · simp at hnone
  · rcases List.mem_filterMap.1 hx with ⟨i, hi, htarget⟩
    cases hm : g.module? id with
    | none => simp [hm] at hi
    | some m =>
      rcases Option.map_eq_some_iff.1 htarget with ⟨t', hresolved, rfl⟩
      simp only [Json.sortKeys, Prod.mk.injEq] at heq
      rw [heq.2] at htext
      have ht : t' = t := congrArg ModuleId.mk (Option.some.inj htext)
      refine ⟨m, rfl, Module.mem_targets.2 ⟨i, ?_, ht ▸ hresolved⟩⟩
      simpa [hm] using hi

end ChunkText

end Bindery
