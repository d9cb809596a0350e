import Mathlib.Data.List.Basic
import Bindery.Proofs.Bundle.ChunkFile
import Bindery.Proofs.Bundle.FileName
import Bindery.Proofs.Json.Quoted

/-!
# What a name in production stands for

The name of a style sheet or a script in production ends in the digest of its text, and the name of a
source map is made from that of its script. So files of two builds that go by the same name are of the
same kind and come of the same text, as long as the digests of the texts do not collide. Style sheets are
their text. A script also has a line that leads to its source map, if there is one, and a source map also
holds the sources that the script was made from; neither shows in the name.

* `Artifact.exists_named_of_mem_ofChunk` : what the name of a file tells.
* `Artifact.Named.eq_of_file_eq` : files of the same name come of the same text.
* `SourceMap.text_ofScript_eq_iff` : a source map tells the sources of its script.
* `Bundler.agree_of_file_eq` : what files of the same name have in common, and what they have not.
-/

namespace Bindery

/-! ## Source maps -/

namespace SourceMap

/-- How the text of a map begins. -/
def opening (file : String) : List Char :=
  "\x7b\"version\":3,\"file\":".toList ++ (Json.quote file).toList ++ ",\"names\":[],\"sources\":".toList

/-- How the texts of the sources are listed. -/
def contents (m : SourceMap) : List Char :=
  if m.sources.isEmpty then []
  else ",\"sourcesContent\":".toList ++ (Json.arr ((m.sources.map (·.2)).map .str)).compact.toList

/-- How the text of a map ends. -/
def ending (mappings : String) : List Char :=
  ",\"mappings\":".toList ++ (Json.quote mappings).toList ++ "\x7d".toList

/-- A map lists the addresses of its sources and then their texts. -/
theorem toList_text (m : SourceMap) :
    m.text.toList = opening m.file ++ ((Json.arr ((m.sources.map (·.1)).map .str)).compact.toList ++
      (m.contents ++ ending m.mappings)) := by
  have hkey : ∀ key ∈ ["version", "file", "names", "sources", "sourcesContent", "mappings"],
      Json.quote key = "\"" ++ key ++ "\"" := by decide +kernel
  have hversion : toString (3 : Int) = "3" := by decide +kernel
  unfold text toJson opening contents ending
  cases m.sources.isEmpty with
  | true =>
    simp [Json.compact, Json.compactMembers, Json.compactItems, Json.joinWith, hkey, hversion,
      Function.comp_def]
  | false =>
    simp [Json.compact, Json.compactMembers, Json.compactItems, Json.joinWith, hkey, hversion,
      Function.comp_def]

/-- The texts of the sources are known from how they are listed. -/
theorem texts_eq_of_contents_append_eq {m n : SourceMap} {r q : List Char}
    (hlength : m.sources.length = n.sources.length) (h : m.contents ++ r = n.contents ++ q) :
    m.sources.map (·.2) = n.sources.map (·.2) := by
  unfold contents at h
  cases hsources : m.sources with
  | nil =>
    rw [hsources] at hlength
    rw [List.length_eq_zero_iff.1 hlength.symm]
  | cons s r =>
    cases hsources' : n.sources with
    | nil =>
      rw [hsources, hsources'] at hlength
      exact absurd hlength (Nat.succ_ne_zero _)
    | cons s' r' =>
      rw [hsources, hsources', List.isEmpty_cons, List.isEmpty_cons, if_neg Bool.false_ne_true,
        if_neg Bool.false_ne_true, List.append_assoc, List.append_assoc,
        List.append_cancel_left_eq] at h
      exact (Json.compact_strings_append_inj h).1

/-- The sources of a map are known from its text. -/
theorem sources_eq_of_text_eq {m n : SourceMap} (hfile : m.file = n.file) (h : m.text = n.text) :
    m.sources = n.sources := by
  have htext := congrArg String.toList h
  rw [toList_text, toList_text, hfile, List.append_cancel_left_eq] at htext
  obtain ⟨haddresses, hrest⟩ := Json.compact_strings_append_inj htext
  have hlength : m.sources.length = n.sources.length := by
    simpa using congrArg List.length haddresses
  have htexts := texts_eq_of_contents_append_eq hlength hrest
  calc m.sources = (n.sources.map (·.1)).zip (n.sources.map (·.2)) := List.zip_of_prod haddresses htexts
    _ = n.sources := (List.zip_of_prod rfl rfl).symm

theorem address_injective : Function.Injective fun s : ModuleId × String =>
    (Loader.address s.1.text, s.2) := by
  rintro ⟨⟨id⟩, text⟩ ⟨⟨id'⟩, text'⟩ h
  obtain ⟨haddress, rfl⟩ := Prod.mk.inj h
  obtain rfl : id = id' := (String.append_right_inj _).1 haddress
  rfl

/-- Maps of the same script are the same exactly when the script was made from the same sources. -/
theorem text_ofScript_eq_iff (file script : String) (sources sources' : List (ModuleId × String)) :
    (ofScript file script sources).text = (ofScript file script sources').text ↔
      distinct sources = distinct sources' := by
  constructor
  · intro h
    have hsources := sources_eq_of_text_eq (m := ofScript file script sources)
      (n := ofScript file script sources') rfl h
    exact List.map_injective_iff.2 address_injective hsources
  · intro h
    rw [ofScript, ofScript, h]

end SourceMap

/-! ## Names -/

/-- No text of one list has the digest of another text of the other list. -/
def FileName.NoCollision (texts texts' : List String) : Prop :=
  ∀ t ∈ texts, ∀ t' ∈ texts', fingerprint t.toUTF8 = fingerprint t'.toUTF8 → t = t'

/-- What comes of a chunk before its files are named: the script and the style sheet. -/
def ChunkText.rendered (text : ChunkText) : List String := text.script.toList ++ text.style.toList

/-- The text of a chunk that has a script and no style sheet. -/
structure ChunkText.IsScript (text : ChunkText) (t : String) : Prop where
  script : text.script = some t
  style : text.style = none

/-- A text does not collide with itself. -/
theorem ChunkText.IsScript.noCollision {text text' : ChunkText} {t : String} (h : text.IsScript t)
    (h' : text'.IsScript t) : FileName.NoCollision text.rendered text'.rendered := by
  rw [rendered, rendered, h.script, h.style, h'.script, h'.style]
  intro x hx y hy _
  exact (List.mem_singleton.1 hx).trans (List.mem_singleton.1 hy).symm

/-- What stands behind the digest in the name of a file of some kind. -/
def ArtifactKind.extension : ArtifactKind → String
  | .script => ".js"
  | .style => ".css"
  | .sourceMap => ".js.map"
  | .asset => ""

namespace Artifact

/-- A script as it is written: a line that leads to the source map stands behind it, if there is
one. -/
def written (sourceMaps : Bool) (file script : String) : String :=
  if sourceMaps then
    script ++ "//# sourceMappingURL=" ++ FileName.base (FileName.sourceMap file) ++ "\n"
  else script

/-- A script shows whether it has a source map. -/
theorem written_eq_iff {sourceMaps sourceMaps' : Bool} (file script : String) :
    written sourceMaps file script = written sourceMaps' file script ↔ sourceMaps = sourceMaps' := by
  have hline : written true file script ≠ written false file script := by
    intro h
    have hchars := congrArg String.toList h
    rw [written, written, if_pos rfl, if_neg Bool.false_ne_true, String.append_assoc,
      String.append_assoc, String.toList_append, List.append_right_eq_self,
      String.toList_append] at hchars
    exact absurd (List.append_eq_nil_iff.1 hchars).1 (by decide)
  constructor
  · intro h
    cases sourceMaps with
    | true =>
      cases sourceMaps' with
      | true => rfl
      | false => exact absurd h hline
    | false =>
      cases sourceMaps' with
      | true => exact absurd h.symm hline
      | false => rfl
  · rintro rfl
    rfl

/-- The name of the script of a chunk. -/
def scriptName (c : Chunk) (hashed : Bool) (script : String) : String :=
  FileName.ofChunk c.name (if c.isEntry then .entryScript else .chunkScript) script.toUTF8 hashed

variable {a a' : Artifact} {c : Chunk} {text text' : ChunkText} {sourceMaps sourceMaps' : Bool}
  {t t' : String}

/-- What comes of a script: the script itself or its source map. -/
theorem cases_of_mem_ofScript {hashed : Bool} {sources : List (ModuleId × String)}
    (h : a ∈ ofScript c hashed sourceMaps sources t) :
    (a.kind = .script ∧ a.file = scriptName c hashed t ∧
        a.bytes = (written sourceMaps a.file t).toUTF8) ∨
      (a.kind = .sourceMap ∧ a.file = FileName.sourceMap (scriptName c hashed t) ∧
        a.bytes = (SourceMap.ofScript (scriptName c hashed t) t sources).text.toUTF8) := by
  unfold ofScript at h
  cases sourceMaps with
  | false =>
    obtain rfl := List.mem_singleton.1 h
    exact .inl ⟨rfl, rfl, rfl⟩
  | true =>
    rcases List.mem_cons.1 h with rfl | h
    · exact .inr ⟨rfl, rfl, rfl⟩
    · obtain rfl := List.mem_singleton.1 h
      exact .inl ⟨rfl, rfl, rfl⟩

/-- A file of a chunk in production: the text that it is named after, and what it holds. -/
structure Named (text : ChunkText) (sourceMaps : Bool) (a : Artifact) (t : String) : Prop where
  rendered : t ∈ text.rendered
  isOfChunk : a.kind ≠ .asset
  file : ∃ start, a.file.toList =
    start ++ ((FileName.fingerprint t.toUTF8).toList ++ a.kind.extension.toList)
  style : a.kind = .style → a.bytes = t.toUTF8
  script : a.kind = .script → a.bytes = (written sourceMaps a.file t).toUTF8
  sourceMap : a.kind = .sourceMap → ∃ file, a.file = FileName.sourceMap file ∧
    a.bytes = (SourceMap.ofScript file t text.sources).text.toUTF8

theorem named_ofStyle (h : text.style = some t) : Named text sourceMaps (ofStyle c.name true t) t where
  rendered := by
    rw [ChunkText.rendered, h]
    exact List.mem_append_right _ (List.mem_singleton_self t)
  isOfChunk := fun hkind => nomatch hkind
  file := FileName.exists_ofChunk_eq c.name .style t.toUTF8
  style := fun _ => rfl
  script := fun hkind => nomatch hkind
  sourceMap := fun hkind => nomatch hkind

/-- The name of a script ends in the digest of its text. -/
theorem exists_scriptName_eq (c : Chunk) (t : String) : ∃ start, (scriptName c true t).toList =
    start ++ ((FileName.fingerprint t.toUTF8).toList ++ ".js".toList) := by
  unfold scriptName
  cases c.isEntry with
  | true => exact FileName.exists_ofChunk_eq c.name .entryScript t.toUTF8
  | false => exact FileName.exists_ofChunk_eq c.name .chunkScript t.toUTF8

theorem named_of_mem_ofScript (h : text.script = some t)
    (ha : a ∈ ofScript c true sourceMaps text.sources t) : Named text sourceMaps a t := by
  have hrendered : t ∈ text.rendered := by
    rw [ChunkText.rendered, h]
    exact List.mem_append_left _ (List.mem_singleton_self t)
  obtain ⟨start, hname⟩ := exists_scriptName_eq c t
  rcases cases_of_mem_ofScript ha with ⟨hkind, hfile, hbytes⟩ | ⟨hkind, hfile, hbytes⟩
  · constructor
    · exact hrendered
    · simp [hkind]
    · rw [hkind, hfile]
      exact ⟨start, hname⟩
    · simp [hkind]
    · exact fun _ => hbytes
    · simp [hkind]
  · have hextension : ".js".toList ++ ".map".toList = ArtifactKind.sourceMap.extension.toList := by
      decide
    constructor
    · exact hrendered
    · simp [hkind]
    · refine ⟨start, ?_⟩
      rw [hkind, hfile, FileName.sourceMap, String.toList_append, hname, List.append_assoc,
        List.append_assoc, hextension]
    · simp [hkind]
    · simp [hkind]
    · exact fun _ => ⟨_, hfile, hbytes⟩

/-- Every file of a chunk in production is named after a text of the chunk. -/
theorem exists_named_of_mem_ofChunk (ha : a ∈ ofChunk c text true sourceMaps) :
    ∃ t, Named text sourceMaps a t := by
  rcases mem_ofChunk.1 ha with ⟨style, hstyle, rfl⟩ | ⟨script, hscript, ha⟩
  · exact ⟨style, named_ofStyle hstyle⟩
  · exact ⟨script, named_of_mem_ofScript hscript ha⟩

/-- Names of files of different kinds end differently. -/
theorem kind_eq_of_append_eq {k k' : ArtifactKind} (hk : k ≠ .asset) (hk' : k' ≠ .asset)
    {start start' : List Char} (h : start ++ k.extension.toList = start' ++ k'.extension.toList) :
    k = k' := by
  have hlength : ∀ k : ArtifactKind, k ≠ .asset → 2 ≤ k.extension.toList.length := by
    intro k hk
    revert hk
    cases k <;> decide
  -- the last two characters tell the kinds apart
  have hends := Text.take_reverse_eq_of_append_eq h (hlength k hk) (hlength k' hk')
  revert hk hk' hends
  cases k <;> cases k' <;> decide

/-- Files of the same name are of the same kind and come of the same text. -/
theorem Named.eq_of_file_eq (h : Named text sourceMaps a t) (h' : Named text' sourceMaps' a' t')
    (hfile : a.file = a'.file) (hcollision : FileName.NoCollision text.rendered text'.rendered) :
    a.kind = a'.kind ∧ t = t' := by
  obtain ⟨start, hstart⟩ := h.file
  obtain ⟨start', hstart'⟩ := h'.file
  rw [hfile, hstart', ← List.append_assoc, ← List.append_assoc] at hstart
  have hkind : a.kind = a'.kind :=
    (kind_eq_of_append_eq h'.isOfChunk h.isOfChunk hstart).symm
  rw [hkind] at hstart
  have hdigest := (List.append_inj' (List.append_cancel_right hstart) (by
    rw [FileName.length_fingerprint, FileName.length_fingerprint])).2
  exact ⟨hkind, hcollision t h.rendered t' h'.rendered (String.toList_inj.1 hdigest).symm⟩

/-- A script is written under its name. -/
theorem exists_script_of_script_eq (h : text.script = some t) (hashed sourceMaps : Bool) :
    ∃ a ∈ ofChunk c text hashed sourceMaps, a.kind = .script ∧ a.file = scriptName c hashed t ∧
      a.bytes = (written sourceMaps (scriptName c hashed t) t).toUTF8 := by
  have hscript : ∃ a ∈ ofScript c hashed sourceMaps text.sources t, a.kind = .script ∧
      a.file = scriptName c hashed t ∧
      a.bytes = (written sourceMaps (scriptName c hashed t) t).toUTF8 := by
    cases sourceMaps with
    | false => exact ⟨_, List.mem_singleton_self _, rfl, rfl, rfl⟩
    | true => exact ⟨_, List.mem_cons_of_mem _ (List.mem_singleton_self _), rfl, rfl, rfl⟩
  obtain ⟨a, ha, hspec⟩ := hscript
  exact ⟨a, mem_ofChunk.2 (.inr ⟨t, h, ha⟩), hspec⟩

/-- A source map is written beside its script. -/
theorem exists_sourceMap_of_script_eq (h : text.script = some t) (hashed : Bool) :
    ∃ a ∈ ofChunk c text hashed true, a.kind = .sourceMap ∧
      a.file = FileName.sourceMap (scriptName c hashed t) ∧
      a.bytes = (SourceMap.ofScript (scriptName c hashed t) t text.sources).text.toUTF8 :=
  ⟨_, mem_ofChunk.2 (.inr ⟨t, h, List.mem_cons_self⟩), rfl, rfl, rfl⟩

end Artifact

/-! ## Files of the same name -/

namespace Bundler

/-- What two files of chunks have in common that go by the same name, and what they have not. -/
structure Agree (b b' : Bundler) (text text' : ChunkText) (a a' : Artifact) : Prop where
  kind : a.kind = a'.kind
  style : a.kind = .style → a.bytes = a'.bytes
  /-- A script also shows whether the build makes source maps. -/
  script : a.kind = .script → (a.bytes = a'.bytes ↔ b.has .sourceMaps = b'.has .sourceMaps)
  /-- A source map also shows what the script was made from. -/
  sourceMap : a.kind = .sourceMap →
    (a.bytes = a'.bytes ↔ SourceMap.distinct text.sources = SourceMap.distinct text'.sources)

variable {b b' : Bundler} {g g' : ModuleGraph} {outputs outputs' : ModuleOutputs} {c c' : Chunk}
  {a a' : Artifact}

theorem filesOf_of_isProduction (h : b.profile.isProduction = true) : b.filesOf g outputs c =
    Artifact.ofChunk c (b.textOf g outputs c) true (b.has .sourceMaps) := by
  have hhashed : b.has .fingerprint = true := h
  rw [filesOf, hhashed]

/-- Where digests do not collide, files of chunks of two production builds that go by the same name are
of the same kind. Style sheets are then the same. Scripts are the same exactly when both builds make
source maps or neither does, and source maps exactly when the scripts were made from the same
sources. -/
theorem agree_of_file_eq (hproduction : b.profile.isProduction = true)
    (hproduction' : b'.profile.isProduction = true) (ha : a ∈ b.filesOf g outputs c)
    (ha' : a' ∈ b'.filesOf g' outputs' c') (hfile : a.file = a'.file)
    (hcollision : FileName.NoCollision (b.textOf g outputs c).rendered
      (b'.textOf g' outputs' c').rendered) :
    Agree b b' (b.textOf g outputs c) (b'.textOf g' outputs' c') a a' := by
  rw [filesOf_of_isProduction hproduction] at ha
  rw [filesOf_of_isProduction hproduction'] at ha'
  obtain ⟨t, hnamed⟩ := Artifact.exists_named_of_mem_ofChunk ha
  obtain ⟨t', hnamed'⟩ := Artifact.exists_named_of_mem_ofChunk ha'
  obtain ⟨hkind, rfl⟩ := hnamed.eq_of_file_eq hnamed' hfile hcollision
  constructor
  · exact hkind
  · intro hstyle
    rw [hnamed.style hstyle, hnamed'.style (hkind ▸ hstyle)]
  · intro hscript
    rw [hnamed.script hscript, hnamed'.script (hkind ▸ hscript), hfile, String.toUTF8,
      String.toUTF8, String.toByteArray_inj, Artifact.written_eq_iff]
  · intro hmap
    obtain ⟨file, hname, hbytes⟩ := hnamed.sourceMap hmap
    obtain ⟨file', hname', hbytes'⟩ := hnamed'.sourceMap (hkind ▸ hmap)
    rw [hname, hname'] at hfile
    obtain rfl : file = file' := (String.append_left_inj _).1 hfile
    rw [hbytes, hbytes', String.toUTF8, String.toUTF8, String.toByteArray_inj,
      SourceMap.text_ofScript_eq_iff]

/-! ## A page that is written in capitals -/

/-- A page of one module. -/
def onePage (text : String) : ModuleGraph :=
  .ofModules [("main", [⟨"main.js"⟩])] [{ Split.letter "main.js" [] with source := text.toUTF8 }]

/-- What the module becomes, whether or not it was written in capitals. -/
def capitals : ModuleOutputs := [(⟨"main.js"⟩, .code .script "A")]

/-- The one chunk of the page. -/
def mainChunk : Chunk :=
  { name := "main", kind := .initial, entry := some "main", group := none
    modules := [⟨"main.js"⟩], size := 1 }

/-- A bundler for production that makes no source maps. -/
def unmapped : Bundler :=
  { profile := .ofLayer { split := some { minSize := some 0, groups := some [] }
                          sourceMap := some .none } .production {}
    registry := Engine.builtins }

/-- With and without source maps, and however the module was written, the chunk comes to the same
script. -/
theorem exists_script_mainChunk : ∃ t,
    (Split.plainBundler.textOf (onePage "a") capitals mainChunk).IsScript t ∧
      (unmapped.textOf (onePage "a") capitals mainChunk).IsScript t ∧
      (Split.plainBundler.textOf (onePage "A") capitals mainChunk).IsScript t := by
  have hscript : (Split.plainBundler.textOf (onePage "a") capitals mainChunk).script.isSome = true := by
    decide +kernel
  obtain ⟨t, ht⟩ := Option.isSome_iff_exists.1 hscript
  have hunmapped : (unmapped.textOf (onePage "a") capitals mainChunk).script =
      (Split.plainBundler.textOf (onePage "a") capitals mainChunk).script := by decide +kernel
  have hcapital : (Split.plainBundler.textOf (onePage "A") capitals mainChunk).script =
      (Split.plainBundler.textOf (onePage "a") capitals mainChunk).script := by decide +kernel
  refine ⟨t, ⟨ht, ?_⟩, ⟨hunmapped.trans ht, ?_⟩, ⟨hcapital.trans ht, ?_⟩⟩
  · decide +kernel
  · decide +kernel
  · decide +kernel

/-- In two builds for production files of a chunk go by the same name and differ, though no digests
collide. -/
def Ambiguous (b b' : Bundler) (g g' : ModuleGraph) (outputs : ModuleOutputs) (c : Chunk)
    (k : ArtifactKind) : Prop :=
  b.profile.isProduction = true ∧ b'.profile.isProduction = true ∧
    ∃ a ∈ b.filesOf g outputs c, ∃ a' ∈ b'.filesOf g' outputs c,
      a.kind = k ∧ a.file = a'.file ∧ a.bytes ≠ a'.bytes ∧
        FileName.NoCollision (b.textOf g outputs c).rendered (b'.textOf g' outputs c).rendered

/-- Names do not stand for contents: the script of the page goes by the same name with and without a
source map, and its source map goes by the same name whatever source the script was made from. All
three builds have the same chunk. -/
theorem ambiguous_onePage :
    (onePage "a").split Split.plainBundler.profile capitals.assetIds = [mainChunk] ∧
      (onePage "a").split unmapped.profile capitals.assetIds = [mainChunk] ∧
      (onePage "A").split Split.plainBundler.profile capitals.assetIds = [mainChunk] ∧
      Ambiguous Split.plainBundler unmapped (onePage "a") (onePage "a") capitals mainChunk .script ∧
      Ambiguous Split.plainBundler Split.plainBundler (onePage "a") (onePage "A") capitals mainChunk
        .sourceMap := by
  obtain ⟨t, hplain, hunmapped, hcapital⟩ := exists_script_mainChunk
  refine ⟨by decide +kernel, by decide +kernel, by decide +kernel, ?_, ?_⟩
  · obtain ⟨a, ha, hkind, hfile, hbytes⟩ :=
      Artifact.exists_script_of_script_eq (c := mainChunk) hplain.script true true
    obtain ⟨a', ha', -, hfile', hbytes'⟩ :=
      Artifact.exists_script_of_script_eq (c := mainChunk) hunmapped.script true false
    refine ⟨rfl, rfl, a, ha, a', ha', hkind, hfile.trans hfile'.symm, ?_, hplain.noCollision hunmapped⟩
    rw [hbytes, hbytes', Ne, String.toUTF8, String.toUTF8, String.toByteArray_inj,
      Artifact.written_eq_iff]
    exact Bool.noConfusion
  · obtain ⟨a, ha, hkind, hfile, hbytes⟩ :=
      Artifact.exists_sourceMap_of_script_eq (c := mainChunk) hplain.script true
    obtain ⟨a', ha', -, hfile', hbytes'⟩ :=
      Artifact.exists_sourceMap_of_script_eq (c := mainChunk) hcapital.script true
    refine ⟨rfl, rfl, a, ha, a', ha', hkind, hfile.trans hfile'.symm, ?_, hplain.noCollision hcapital⟩
    rw [hbytes, hbytes', Ne, String.toUTF8, String.toUTF8, String.toByteArray_inj,
      SourceMap.text_ofScript_eq_iff]
    decide +kernel

theorem agree_of_file_eq_onePage : ∃ a a',
    Split.plainBundler.profile.isProduction = true ∧ unmapped.profile.isProduction = true ∧
      a ∈ Split.plainBundler.filesOf (onePage "a") capitals mainChunk ∧
      a' ∈ unmapped.filesOf (onePage "a") capitals mainChunk ∧ a.file = a'.file ∧
      FileName.NoCollision (Split.plainBundler.textOf (onePage "a") capitals mainChunk).rendered
        (unmapped.textOf (onePage "a") capitals mainChunk).rendered ∧
      Agree Split.plainBundler unmapped (Split.plainBundler.textOf (onePage "a") capitals mainChunk)
        (unmapped.textOf (onePage "a") capitals mainChunk) a a' := by
  obtain ⟨t, hplain, hunmapped, -⟩ := exists_script_mainChunk
  obtain ⟨a, ha, -, hfile, -⟩ :=
    Artifact.exists_script_of_script_eq (c := mainChunk) hplain.script true true
  obtain ⟨a', ha', -, hfile', -⟩ :=
    Artifact.exists_script_of_script_eq (c := mainChunk) hunmapped.script true false
  have hsame : a.file = a'.file := hfile.trans hfile'.symm
  have hcollision := hplain.noCollision hunmapped
  exact ⟨a, a', rfl, rfl, ha, ha', hsame, hcollision,
    agree_of_file_eq rfl rfl ha ha' hsame hcollision⟩

end Bundler

end Bindery
