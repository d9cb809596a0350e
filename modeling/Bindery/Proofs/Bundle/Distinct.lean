import Mathlib.Data.List.Nodup
import Bindery.Proofs.Bundle.ChunkName
import Bindery.Proofs.Bundle.ContentAddress

/-!
# Files that share a name

Chunks have names of their own, but their files are called by what is left of these names once some
characters are replaced, and copies are called by the templates of their rules. The files of one chunk
never share a name, and neither do copies. Files of two chunks share one exactly when they are of the
same kind and what is left of the names is the same, in production with the same digest; and a copy
may be called like the file of a chunk.

* `FileName.ofChunk_eq_iff` : when two names of files are the same.
* `Artifact.exists_file_eq_iff` : when two chunks have files of the same name.
* `Artifact.nodup_file_ofChunk`, `Artifact.nodup_file_assets` : the files of one chunk and the copies.
* `Bundler.nodup_file_artifacts_iff` : when all files of a build have names of their own.
* `Bundler.nodup_file_split` : so it is where names are plain and no copy is called like a chunk.
-/

namespace Bindery

/-! ## Names -/

namespace FileName

variable {hashed : Bool} {name name' : String} {role role' : Role} {bytes bytes' : ByteArray}

theorem length_digest (hashed : Bool) (bytes bytes' : ByteArray) :
    (digest hashed bytes).toList.length = (digest hashed bytes').toList.length := by
  cases hashed with
  | false => simp [digest]
  | true => simp [digest, length_fingerprint]

/-- Names that end in the same extension tell their roles by the character before. -/
theorem Role.eq_of_append_word_eq (hextension : role.extension = role'.extension)
    {start start' : List Char} (h : start ++ role.word.toList = start' ++ role'.word.toList) :
    role = role' := by
  cases role with
  | entryScript =>
    cases role' with
    | entryScript => rfl
    | chunkScript =>
      exact absurd (Text.take_reverse_eq_of_append_eq (n := 1) h (by decide) (by decide)) (by decide)
    | style => exact absurd hextension (by decide)
  | chunkScript =>
    cases role' with
    | entryScript =>
      exact absurd (Text.take_reverse_eq_of_append_eq (n := 1) h (by decide) (by decide)) (by decide)
    | chunkScript => rfl
    | style => exact absurd hextension (by decide)
  | style =>
    cases role' with
    | entryScript => exact absurd hextension (by decide)
    | chunkScript => exact absurd hextension (by decide)
    | style => rfl

/-- Names of chunks that make files share a name: what is left of them is the same, and so is what the
names tell of the contents. -/
def Alike (hashed : Bool) (name name' : String) (bytes bytes' : ByteArray) : Prop :=
  stem hashed name bytes = stem hashed name' bytes' ∧ digest hashed bytes = digest hashed bytes'

theorem ofChunk_eq_iff : ofChunk name role bytes hashed = ofChunk name' role' bytes' hashed ↔
    role = role' ∧ Alike hashed name name' bytes bytes' := by
  constructor
  · intro h
    rw [ofChunk_eq, ofChunk_eq, ← String.toList_inj] at h
    simp only [String.toList_append] at h
    have hextension : role.extension = role'.extension := by
      have hends : role.extension.toList.reverse.take 2 = role'.extension.toList.reverse.take 2 := by
        simp only [← List.append_assoc] at h
        exact Text.take_reverse_eq_of_append_eq h (by cases role <;> decide)
          (by cases role' <;> decide)
      revert hends
      cases role <;> cases role' <;> decide
    rw [← List.append_assoc, ← List.append_assoc (stem hashed name' bytes').toList] at h
    have hlength : ((digest hashed bytes).toList ++ role.extension.toList).length =
        ((digest hashed bytes').toList ++ role'.extension.toList).length := by
      rw [List.length_append, List.length_append, length_digest hashed bytes bytes', hextension]
    obtain ⟨hstart, hend⟩ := List.append_inj' h hlength
    obtain rfl := Role.eq_of_append_word_eq hextension hstart
    exact ⟨rfl, String.toList_inj.1 (List.append_cancel_right hstart),
      String.toList_inj.1 (List.append_cancel_right hend)⟩
  · rintro ⟨rfl, hstem, hdigest⟩
    rw [ofChunk_eq, ofChunk_eq, hstem, hdigest]

/-- A name that stands in the names of files as it is. -/
def IsPlain (name : String) : Prop := sanitize name = name ∧ '[' ∉ name.toList

theorem stem_of_isPlain (h : IsPlain name) (hashed : Bool) (bytes : ByteArray) :
    stem hashed name bytes = name := by
  cases hashed with
  | false => exact h.1
  | true =>
    have hmark : "[hash]".toList = '[' :: "hash]".toList := by decide
    rw [stem, if_pos rfl, h.1, Text.replace, hmark, Text.replaceAll_of_notMem h.2,
      String.ofList_toList]

end FileName

/-! ## Files -/

namespace Artifact

variable {a a' : Artifact} {c c' : Chunk} {text text' : ChunkText} {hashed sourceMaps : Bool}
  {outputs : ModuleOutputs}

theorem scriptName_eq_iff {t t' : String} :
    scriptName c hashed t = scriptName c' hashed t' ↔
      c.isEntry = c'.isEntry ∧ FileName.Alike hashed c.name c'.name t.toUTF8 t'.toUTF8 := by
  have hrole : ((if c.isEntry then FileName.Role.entryScript else .chunkScript) =
      if c'.isEntry then .entryScript else .chunkScript) ↔ c.isEntry = c'.isEntry := by
    cases c.isEntry <;> cases c'.isEntry <;> decide
  rw [scriptName, scriptName, FileName.ofChunk_eq_iff, hrole]

/-- The name of a script ends in its extension. -/
theorem exists_scriptName_end (c : Chunk) (hashed : Bool) (t : String) :
    ∃ start, (scriptName c hashed t).toList = start ++ ".js".toList := by
  have hextension :
      (if c.isEntry then FileName.Role.entryScript else .chunkScript).extension = ".js" := by
    split <;> rfl
  rw [scriptName, FileName.ofChunk_eq, hextension, ← String.append_assoc, ← String.append_assoc,
    String.toList_append]
  exact ⟨_, rfl⟩

/-- The name of a file of a chunk ends as names of its kind do. -/
theorem exists_file_end (ha : a ∈ ofChunk c text hashed sourceMaps) :
    ∃ start, a.file.toList = start ++ a.kind.extension.toList := by
  rcases mem_ofChunk.1 ha with ⟨t, -, rfl⟩ | ⟨t, -, hscript⟩
  · rw [ofStyle, FileName.ofChunk_eq, ← String.append_assoc, ← String.append_assoc,
      String.toList_append]
    exact ⟨_, rfl⟩
  · obtain ⟨start, hstart⟩ := exists_scriptName_end c hashed t
    rcases cases_of_mem_ofScript hscript with ⟨hkind, hfile, -⟩ | ⟨hkind, hfile, -⟩
    · rw [hkind, hfile]
      exact ⟨start, hstart⟩
    · refine ⟨start, ?_⟩
      rw [hkind, hfile, FileName.sourceMap, String.toList_append, hstart, List.append_assoc]
      rfl

/-- Files of chunks that share a name are of the same kind. -/
theorem kind_eq_of_file_eq (ha : a ∈ ofChunk c text hashed sourceMaps)
    (ha' : a' ∈ ofChunk c' text' hashed sourceMaps) (h : a.file = a'.file) : a.kind = a'.kind := by
  obtain ⟨start, hstart⟩ := exists_file_end ha
  obtain ⟨start', hstart'⟩ := exists_file_end ha'
  rw [h, hstart'] at hstart
  exact (kind_eq_of_append_eq (kind_ne_asset_of_mem_ofChunk ha')
    (kind_ne_asset_of_mem_ofChunk ha) hstart).symm

/-- Two chunks have style sheets, or scripts of the same role, of names that are alike. -/
def Clash (hashed : Bool) (c c' : Chunk) (text text' : ChunkText) : Prop :=
  (∃ t t', text.style = some t ∧ text'.style = some t' ∧
    FileName.Alike hashed c.name c'.name t.toUTF8 t'.toUTF8) ∨
  ∃ t t', text.script = some t ∧ text'.script = some t' ∧ c.isEntry = c'.isEntry ∧
    FileName.Alike hashed c.name c'.name t.toUTF8 t'.toUTF8

/-- Scripts whose names or whose source maps' names are the same. -/
theorem scriptName_eq_of_file_eq {t t' : String} {sources sources' : List (ModuleId × String)}
    (ha : a ∈ ofScript c hashed sourceMaps sources t)
    (ha' : a' ∈ ofScript c' hashed sourceMaps sources' t') (hkind : a.kind = a'.kind)
    (h : a.file = a'.file) : scriptName c hashed t = scriptName c' hashed t' := by
  rcases cases_of_mem_ofScript ha with ⟨hscript, hfile, -⟩ | ⟨hmap, hfile, -⟩
  · rcases cases_of_mem_ofScript ha' with ⟨-, hfile', -⟩ | ⟨hmap', -, -⟩
    · rw [← hfile, h, hfile']
    · rw [hscript, hmap'] at hkind
      cases hkind
  · rcases cases_of_mem_ofScript ha' with ⟨hscript', -, -⟩ | ⟨-, hfile', -⟩
    · rw [hmap, hscript'] at hkind
      cases hkind
    · rw [hfile, hfile', FileName.sourceMap, FileName.sourceMap, String.append_left_inj] at h
      exact h

/-- Two chunks have files of the same name exactly when they have names that are alike. -/
theorem exists_file_eq_iff (sourceMaps : Bool) :
    (∃ a ∈ ofChunk c text hashed sourceMaps, ∃ a' ∈ ofChunk c' text' hashed sourceMaps,
      a.file = a'.file) ↔ Clash hashed c c' text text' := by
  constructor
  · rintro ⟨a, ha, a', ha', hfile⟩
    have hkind := kind_eq_of_file_eq ha ha' hfile
    rcases mem_ofChunk.1 ha with ⟨t, hstyle, rfl⟩ | ⟨t, ht, hscript⟩
    · rcases mem_ofChunk.1 ha' with ⟨t', hstyle', rfl⟩ | ⟨t', -, hscript'⟩
      · exact .inl ⟨t, t', hstyle, hstyle', (FileName.ofChunk_eq_iff.1 hfile).2⟩
      · rcases (of_mem_ofScript hscript').1 with hother | hother
        · cases hkind.trans hother
        · cases hkind.trans hother
    · rcases mem_ofChunk.1 ha' with ⟨t', -, rfl⟩ | ⟨t', ht', hscript'⟩
      · rcases (of_mem_ofScript hscript).1 with hother | hother
        · cases hother.symm.trans hkind
        · cases hother.symm.trans hkind
      · exact .inr ⟨t, t', ht, ht',
          scriptName_eq_iff.1 (scriptName_eq_of_file_eq hscript hscript' hkind hfile)⟩
  · rintro (⟨t, t', ht, ht', halike⟩ | ⟨t, t', ht, ht', hsame⟩)
    · exact ⟨_, mem_ofChunk.2 (.inl ⟨t, ht, rfl⟩), _, mem_ofChunk.2 (.inl ⟨t', ht', rfl⟩),
        FileName.ofChunk_eq_iff.2 ⟨rfl, halike⟩⟩
    · obtain ⟨a, ha, -, hfile, -⟩ := exists_script_of_script_eq (c := c) ht hashed sourceMaps
      obtain ⟨a', ha', -, hfile', -⟩ := exists_script_of_script_eq (c := c') ht' hashed sourceMaps
      exact ⟨a, ha, a', ha', by rw [hfile, hfile', scriptName_eq_iff.2 hsame]⟩

/-- The files of a chunk are of different kinds. -/
theorem nodup_kind_ofChunk (c : Chunk) (text : ChunkText) (hashed sourceMaps : Bool) :
    ((ofChunk c text hashed sourceMaps).map (·.kind)).Nodup := by
  unfold ofChunk
  cases text.style <;> cases text.script <;> cases sourceMaps <;>
    simp [ofStyle, ofScript]

/-- The files of a chunk have names of their own. -/
theorem nodup_file_ofChunk (c : Chunk) (text : ChunkText) (hashed sourceMaps : Bool) :
    ((ofChunk c text hashed sourceMaps).map (·.file)).Nodup := by
  have hkinds := List.pairwise_map.1 (nodup_kind_ofChunk c text hashed sourceMaps)
  refine List.pairwise_map.2 (hkinds.imp_of_mem ?_)
  intro a a' ha ha' hne hfile
  exact hne (kind_eq_of_file_eq ha ha' hfile)

/-- A copy is only added when no other one has its name. -/
theorem nodup_file_addAsset {done : List Artifact} (h : (done.map (·.file)).Nodup)
    (o : ModuleOutput) : ((addAsset done o).map (·.file)).Nodup := by
  cases o with
  | code kind text => exact h
  | asset file bytes =>
    by_cases hdone : done.any (·.file = file) = true
    · rwa [addAsset, if_pos hdone]
    · rw [addAsset, if_neg hdone, List.map_append, List.map_singleton]
      refine h.append (List.nodup_singleton _) ?_
      rw [List.disjoint_singleton]
      simpa using hdone

/-- Copies have names of their own. -/
theorem nodup_file_assets (outputs : ModuleOutputs) : ((assets outputs).map (·.file)).Nodup := by
  suffices hfold : ∀ (os : List ModuleOutput) (done : List Artifact),
      (done.map (·.file)).Nodup → ((os.foldl addAsset done).map (·.file)).Nodup from
    hfold _ [] List.nodup_nil
  intro os
  induction os with
  | nil => exact fun done h => h
  | cons o r ih => exact fun done h => ih _ (nodup_file_addAsset h o)

end Artifact

/-! ## Builds -/

namespace Bundler

variable (b : Bundler) (g : ModuleGraph) (outputs : ModuleOutputs)

/-- Two chunks of a build have files of the same name. -/
def Clash (c c' : Chunk) : Prop :=
  Artifact.Clash (b.has .fingerprint) c c' (b.textOf g outputs c) (b.textOf g outputs c')

/-- A copy of a build is called like a file of a chunk. -/
def Shadowed (chunks : ChunkSet) : Prop :=
  ∃ id file bytes, (id, .asset file bytes) ∈ outputs ∧
    ∃ c ∈ chunks, ∃ a ∈ b.filesOf g outputs c, a.file = file

/-- All files of chunks have names of their own when no two chunks clash. -/
theorem nodup_file_flatMap_filesOf (chunks : ChunkSet) :
    ((chunks.flatMap (b.filesOf g outputs)).map (·.file)).Nodup ↔
      chunks.Pairwise fun c c' => ¬b.Clash g outputs c c' := by
  have hdisjoint : ∀ c c', List.Disjoint ((b.filesOf g outputs c).map (·.file))
      ((b.filesOf g outputs c').map (·.file)) ↔ ¬b.Clash g outputs c c' := by
    intro c c'
    rw [Clash, ← Artifact.exists_file_eq_iff (b.has .sourceMaps)]
    simp only [List.disjoint_left, List.mem_map]
    constructor
    · rintro h ⟨a, ha, a', ha', hfile⟩
      exact h ⟨a, ha, rfl⟩ ⟨a', ha', hfile.symm⟩
    · rintro h _ ⟨a, ha, rfl⟩ ⟨a', ha', hfile⟩
      exact h ⟨a, ha, a', ha', hfile.symm⟩
  rw [List.map_flatMap, List.nodup_flatMap]
  refine (and_iff_right fun c _ => Artifact.nodup_file_ofChunk c _ _ _).trans ?_
  exact List.Pairwise.iff fun c c' => hdisjoint c c'

/-- Files of chunks and copies have names of their own apart from each other when no copy is called
like a file of a chunk. -/
theorem nodup_file_artifacts (chunks : ChunkSet) :
    ((b.artifacts g outputs chunks).map (·.file)).Nodup ↔
      ((chunks.flatMap (b.filesOf g outputs)).map (·.file)).Nodup ∧
        ¬b.Shadowed g outputs chunks := by
  rw [artifacts_eq, List.map_append, List.nodup_append]
  refine and_congr_right fun _ => (and_iff_right (Artifact.nodup_file_assets outputs)).trans ?_
  simp only [List.mem_map, List.mem_flatMap]
  constructor
  · rintro h ⟨id, file, bytes, ho, c, hc, a, ha, hfile⟩
    obtain ⟨copy, hcopy, hname⟩ := Artifact.exists_mem_assets ho
    exact h _ ⟨a, ⟨c, hc, ha⟩, rfl⟩ _ ⟨copy, hcopy, rfl⟩ (hfile.trans hname.symm)
  · rintro h _ ⟨a, ⟨c, hc, ha⟩, rfl⟩ _ ⟨copy, hcopy, rfl⟩ hfile
    obtain ⟨-, -, id, bytes, ho⟩ := Artifact.of_mem_assets hcopy
    exact h ⟨id, copy.file, bytes, ho, c, hc, a, ha, hfile⟩

/-- The files of a build have names of their own exactly when no two chunks clash and no copy is called
like a file of a chunk. -/
theorem nodup_file_artifacts_iff (chunks : ChunkSet) :
    ((b.artifacts g outputs chunks).map (·.file)).Nodup ↔
      (chunks.Pairwise fun c c' => ¬b.Clash g outputs c c') ∧ ¬b.Shadowed g outputs chunks := by
  rw [nodup_file_artifacts, nodup_file_flatMap_filesOf]

/-! ### Names that are not kept -/

/-- Two entries whose names differ in a character that names of files do not hold. -/
def slashed : Bundler :=
  { profile :=
      .ofLayer
        { root := some "/app", outputPath := some "out"
          entries := some [("a/b", ["x.js"]), ("a_b", ["y.js"])] }
        .development {}
    registry := Engine.builtins }

/-- An entry, and copies that are called like the script of an entry of their name. -/
def copying : Bundler :=
  { profile :=
      .ofLayer
        { root := some "/app", outputPath := some "out", entries := some [("main", ["main.js"])]
          assets := some [{ test := .ofLiteral "txt$", filename := "[name].bundle.js" }] }
        .development {}
    registry := Engine.builtins }

/-- The scripts of the two entries. -/
def pair : Project :=
  ⟨⟨[(["app", "x.js"], .file "1;".toUTF8), (["app", "y.js"], .file "2;".toUTF8)]⟩, "/app"⟩

/-- A script that asks for a copy. -/
def captioned : Project :=
  ⟨⟨[(["app", "main.js"], .file "import './main.txt';".toUTF8),
    (["app", "main.txt"], .file "hello".toUTF8)]⟩, "/app"⟩

/-- Profiles that are in order lead to two scripts of one name, and to a script and a copy of one
name. -/
theorem not_nodup_file_slashed :
    slashed.profile.validate.isOk = true ∧
      (∃ made, slashed.compile pair none [] = .ok made ∧ ¬(made.artifacts.map (·.file)).Nodup) ∧
      copying.profile.validate.isOk = true ∧
      ∃ made, copying.compile captioned none [] = .ok made ∧
        ¬(made.artifacts.map (·.file)).Nodup := by
  have hfiles : ∀ {b : Bundler} {p : Project} (file : String),
      ((b.compile p none []).toOption.map fun made => made.artifacts.map (·.file)) =
        some [file, file] →
      ∃ made, b.compile p none [] = .ok made ∧ ¬(made.artifacts.map (·.file)).Nodup := by
    intro b p file h
    cases hmade : b.compile p none [] with
    | error e =>
      rw [hmade] at h
      cases h
    | ok made =>
      rw [hmade] at h
      have hsame : made.artifacts.map (·.file) = [file, file] := Option.some.inj h
      refine ⟨made, rfl, ?_⟩
      rw [hsame]
      simp
  refine ⟨by decide, hfiles "a_b.bundle.js" ?_, by decide +kernel,
    hfiles "main.bundle.js" ?_⟩
  · decide +kernel
  · decide +kernel

/-! ### Names that are kept -/

variable {b g outputs}

/-- Chunks whose names stand in the names of their files as they are do not clash. -/
theorem not_clash_of_isPlain {c c' : Chunk} (h : FileName.IsPlain c.name)
    (h' : FileName.IsPlain c'.name) (hne : c.name ≠ c'.name) : ¬b.Clash g outputs c c' := by
  have hnames : ∀ {bytes bytes'},
      ¬FileName.Alike (b.has .fingerprint) c.name c'.name bytes bytes' := by
    intro bytes bytes' halike
    refine hne ?_
    rw [← FileName.stem_of_isPlain h (b.has .fingerprint) bytes,
      ← FileName.stem_of_isPlain h' (b.has .fingerprint) bytes', halike.1]
  rintro (⟨t, t', -, -, halike⟩ | ⟨t, t', -, -, -, halike⟩)
  · exact hnames halike
  · exact hnames halike

/-- Chunks have names of their own, in development those of their entries. -/
theorem nodup_names_split (p : Profile) (assets : List ModuleId)
    (hentries : (g.entries.map (·.1)).Nodup) : ((g.split p assets).map (·.name)).Nodup := by
  unfold ModuleGraph.split
  cases p.split? with
  | some settings => exact Split.nodup_names_shared g settings assets
  | none =>
    rw [Split.perEntry, List.map_map]
    exact hentries

/-- Where the names of chunks stand in the names of files as they are, files share a name only with
copies. -/
theorem nodup_file_split (assets : List ModuleId) (hentries : (g.entries.map (·.1)).Nodup)
    (hplain : ∀ c ∈ g.split b.profile assets, FileName.IsPlain c.name) :
    ((b.artifacts g outputs (g.split b.profile assets)).map (·.file)).Nodup ↔
      ¬b.Shadowed g outputs (g.split b.profile assets) := by
  rw [nodup_file_artifacts, nodup_file_flatMap_filesOf]
  refine and_iff_right ?_
  have hnames := List.pairwise_map.1 (nodup_names_split b.profile assets hentries)
  refine hnames.imp_of_mem ?_
  intro c c' hc hc' hne
  exact not_clash_of_isPlain (hplain c hc) (hplain c' hc') hne

end Bundler

end Bindery
