import Bindery.Proofs.Bundle.Delivery
import Bindery.Proofs.Bundle.Durable
import Bindery.Proofs.Bundle.FileName

/-!
# Bundles of one script

A production bundle with one page comes to one file with a digest in its name. Such a file can be
written wherever the directories are known, whatever the digest is.

* `FileName.isName_main` : the name of the file.
* `Output.shelved_append` : it has a place in the output directory.
* `Bundler.artifacts_of_isSingle` : the files of such a bundle.
* `Bundler.write_single` : a bundle of one file is written.
-/

namespace Bindery

open Path Location

namespace FileName

theorem ofChunk_main (bytes : ByteArray) : ofChunk "main" .entryScript bytes true =
    "main.bundle." ++ fingerprint bytes ++ ".js" := by
  have hname : sanitize "main" ++ Role.ending (some "[hash]") .entryScript =
      "main.bundle.[hash].js" := by decide
  rw [ofChunk, if_pos rfl, hname, ← String.toList_inj]
  simp [Text.replace, Text.replaceAll]

/-- The name of the script can be that of a file, whatever the script says. -/
theorem isName_main (bytes : ByteArray) :
    IsName (ofChunk "main" .entryScript bytes true) ∧
      '\x00' ∉ (ofChunk "main" .entryScript bytes true).toList ∧
      (ofChunk "main" .entryScript bytes true).utf8ByteSize ≤ 64 := by
  have hsize := utf8ByteSize_le (fingerprint bytes)
  have hlength := length_fingerprint_le bytes
  have hmain : "main.bundle.".utf8ByteSize = 12 := by decide
  have hend : ".js".utf8ByteSize = 3 := by decide
  refine ⟨(isName_ofChunk "main" .entryScript bytes true).1,
    notMem_ofChunk (.inr rfl) "main" .entryScript bytes true, ?_⟩
  rw [ofChunk_main, String.utf8ByteSize_append, String.utf8ByteSize_append]
  omega

end FileName

/-- A file directly below a known directory has its place there. -/
theorem Output.shelved_append {top : Location} {name : String} (htop : Plain top)
    (hstorable : Disk.Storable top) (hname : IsName name) (hnul : '\x00' ∉ name.toList)
    (hsize : name.utf8ByteSize + 10 ≤ Disk.nameLimit) : Shelved (· <+: top) (top ++ [name]) := by
  constructor
  · intro other hmem
    rcases List.mem_append.1 hmem with hmem | hmem
    · exact htop other hmem
    · exact List.mem_singleton.1 hmem ▸ hname
  · simp
  · exact storable_beside hstorable hnul hsize
  · exact fun above habove => above_append_singleton.1 habove
  · exact fun hway => absurd hway.length_le (by simp)
  · intro hway
    have hlength := hway.length_le
    rw [length_beside (by simp), List.length_append, List.length_singleton] at hlength
    omega

/-- So does a file beside that directory. -/
theorem Output.shelved_sibling {parent : Location} {out name : String}
    (hplain : Plain (parent ++ [name])) (hstorable : Disk.Storable (beside (parent ++ [name])))
    (hne : name ≠ out) (hwaiting : name ++ ".sheaf-tmp" ≠ out) :
    Shelved (· <+: parent ++ [out]) (parent ++ [name]) := by
  have hlast : ∀ other, parent ++ [other] <+: parent ++ [out] → other = out := by
    intro other hway
    have hsame := hway.eq_of_length (by simp)
    exact (List.cons.inj (List.append_cancel_left hsame)).1
  constructor
  · exact hplain
  · simp
  · exact hstorable
  · exact fun above habove => (above_append_singleton.1 habove).trans (List.prefix_append _ _)
  · exact fun hway => hne (hlast name hway)
  · intro hway
    rw [beside_append] at hway
    exact hwaiting (hlast _ hway)

namespace Bundler

variable {b : Bundler} {made : Bundle} {d : Disk}

/-- The bundle comes to a single script, the one of the page. -/
def isSingle (b : Bundler) (made : Bundle) : Bool :=
  match made.chunks with
  | [c] =>
    c.name = "main" && c.isEntry
      && (ChunkText.ofChunk (.ofProfile b.profile) made.graph made.outputs c).style.isNone
      && (Artifact.assets made.outputs).isEmpty
  | _ => false

/-- The files of a single script. -/
theorem artifacts_of_isSingle (h : b.isSingle made = true) (hhashed : b.has .fingerprint = true)
    (hmaps : b.has .sourceMaps = false)
    (hmade : made.artifacts = b.artifacts made.graph made.outputs made.chunks) :
    ∃ a bytes, made.artifacts = [a] ∧ a.file = FileName.ofChunk "main" .entryScript bytes true := by
  unfold isSingle at h
  split at h
  · next c hchunks =>
    simp only [Bool.and_eq_true, decide_eq_true_eq, Option.isNone_iff_eq_none, List.isEmpty_iff] at h
    obtain ⟨⟨⟨hname, hentry⟩, hstyle⟩, hassets⟩ := h
    obtain ⟨script, hscript⟩ : ∃ script, (ChunkText.ofChunk (.ofProfile b.profile)
        made.graph made.outputs c).script = some script := by
      simp [ChunkText.ofChunk, hentry]
    have hfile : Artifact.ofChunk c (ChunkText.ofChunk (.ofProfile b.profile) made.graph
        made.outputs c) true false =
        [{ file := FileName.ofChunk "main" .entryScript script.toUTF8 true
           kind := .script
           chunk := some "main"
           fingerprint := some (FileName.fingerprint script.toUTF8)
           bytes := script.toUTF8 }] := by
      simp [Artifact.ofChunk, Artifact.ofScript, hstyle, hscript, hentry, hname]
    rw [artifacts, hchunks, hassets, hhashed, hmaps, List.flatMap_singleton,
      List.append_nil, hfile] at hmade
    exact ⟨_, script.toUTF8, hmade, rfl⟩
  · cases h

/-- The file has its place in the output directory. -/
theorem placed_single {top : Location} {a : Artifact} {bytes : ByteArray} (htop : Plain top)
    (hstorable : Disk.Storable top)
    (hfile : a.file = FileName.ofChunk "main" .entryScript bytes true) :
    Output.Placed top [a] [top ++ [a.file]] ∧ Output.Shelved (· <+: top) (top ++ [a.file]) := by
  obtain ⟨hname, hnul, hsize⟩ := FileName.isName_main bytes
  rw [← hfile] at hname hnul hsize
  have hshelved := Output.shelved_append htop hstorable hname hnul (by unfold Disk.nameLimit; omega)
  have htarget := Output.target?_of_isName htop hname hnul
  have habove : Location.Above top (top ++ [a.file]) := above_append_singleton.2 List.prefix_rfl
  exact ⟨List.Forall₂.cons ⟨htarget, hshelved.plain, habove⟩ List.Forall₂.nil, hshelved⟩

/-- A bundle of one script and its manifest are written where all directories are known, and make no
others. -/
theorem write_single {top manifest : Location} {a : Artifact} {bytes : ByteArray}
    (hout : b.profile.outputDirectory = toPath top) (htop : Plain top)
    (hstorable : Disk.Storable top) (htarget : b.manifestTarget? = some (toPath manifest))
    (hshelved : Output.Shelved (· <+: top) manifest) (hartifacts : made.artifacts = [a])
    (hfile : a.file = FileName.ofChunk "main" .entryScript bytes true) (isRebuild : Bool)
    (hreliable : d.Reliable) (habsolute : isAbsolute d.base = true)
    (hwithin : d.tree.Within (· <+: top)) :
    ∃ snapshot d', b.write made isRebuild d = (.ok snapshot, d') ∧ d'.Reliable ∧
      isAbsolute d'.base = true ∧ d'.tree.Within (· <+: top) := by
  have hparents : ∀ other above : Location, other <+: top → above.Above other → above <+: top :=
    fun _ _ hother habove => habove.1.trans hother
  have hdirectory : Output.absolute d.base b.profile.outputDirectory = toPath top := by
    rw [hout]
    exact Output.absolute_toPath htop d.base
  -- the script
  obtain ⟨hplaced, hscript⟩ := placed_single htop hstorable hfile
  rw [← hartifacts] at hplaced
  obtain ⟨d₁, hfiles⟩ := Output.writeArtifacts_of_free hreliable habsolute htop hdirectory hstorable
    (fun above hne hway => hwithin.free above hway hne) hplaced (hscript.free hwithin)
  have hgrows₁ : d.Grows (Output.Touches [top ++ [a.file]]) (· <+: top) d₁ := by
    obtain ⟨locs, -, hplaced', hwritten⟩ := Output.writeArtifacts_ok habsolute htop hdirectory hfiles
    obtain rfl : [top ++ [a.file]] = locs :=
      (hplaced.places_eq hdirectory).symm.trans (hplaced'.places_eq hdirectory)
    have hfree := hscript.free hwithin
    obtain ⟨hgrows, -⟩ := hwritten fun a ha b hb => (hfree.apart a ha b hb).1
    refine hgrows.mono (fun _ => id) ?_
    rintro other (hway | ⟨place, hplace, habove⟩)
    · exact hway
    · obtain rfl := List.mem_singleton.1 hplace
      exact hscript.above other habove
  have hwithin₁ := hscript.within hwithin hparents hgrows₁
  have habsolute₁ := hgrows₁.isAbsolute habsolute
  -- the manifest
  rw [manifestTarget?_eq b made] at htarget
  obtain ⟨⟨path, m⟩, hmanifest, rfl⟩ := Option.map_eq_some_iff.1 htarget
  obtain ⟨d₂, hdurable⟩ := Output.writeDurably_of_free (hgrows₁.reliable hreliable) habsolute₁
    hshelved.plain hshelved.ne_nil (hshelved.free hwithin₁) (m.text ++ "\n").toUTF8
  have hgrows₂ : d₁.Grows (Output.Touches [manifest]) (· <+: top) d₂ := by
    have hconfined := Output.confined_writeDurably habsolute₁ hshelved.plain hshelved.ne_nil
      (m.text ++ "\n").toUTF8 d₁ rfl
    rw [hdurable] at hconfined
    exact hconfined.mono (fun _ => id) hshelved.above
  have hwrites : b.writeManifest made d₁ = (.ok (), d₂) := by
    rw [writeManifest, hmanifest]
    exact hdurable
  obtain ⟨snapshot, hwritten⟩ := write_eq_ok hfiles hwrites isRebuild
  exact ⟨snapshot, d₂, hwritten, hgrows₂.reliable (hgrows₁.reliable hreliable),
    hgrows₂.isAbsolute habsolute₁, hshelved.within hwithin₁ hparents hgrows₂⟩

/-! ## Output in `/app/out` -/

theorem plain_out : Plain ["app", "out"] := by
  unfold Plain IsName
  decide

theorem storable_out : Disk.Storable ["app", "out"] := Disk.storable_iff.2 (by decide)

/-- The manifest has its place beside the output directory. -/
theorem shelved_assets : Output.Shelved (· <+: ["app", "out"]) ["app", "assets.json"] := by
  have hplain : Plain (["app"] ++ ["assets.json"]) := by
    unfold Plain IsName
    decide
  exact Output.shelved_sibling hplain (Disk.storable_iff.2 (by decide)) (by decide) (by decide)

theorem toPath_out : toPath ["app", "out"] = "/app/out" := by decide

theorem toPath_assets : toPath ["app", "assets.json"] = "/app/assets.json" := by decide

/-- A bundle of one script is written to `/app/out`, with a manifest beside it. -/
theorem write_single_out {a : Artifact} {bytes : ByteArray}
    (hout : b.profile.outputDirectory = "/app/out")
    (htarget : b.manifestTarget? = some "/app/assets.json") (hartifacts : made.artifacts = [a])
    (hfile : a.file = FileName.ofChunk "main" .entryScript bytes true) (isRebuild : Bool)
    (hreliable : d.Reliable) (habsolute : isAbsolute d.base = true)
    (hwithin : d.tree.Within (· <+: ["app", "out"])) :
    ∃ snapshot d', b.write made isRebuild d = (.ok snapshot, d') ∧ d'.Reliable ∧
      isAbsolute d'.base = true ∧ d'.tree.Within (· <+: ["app", "out"]) :=
  write_single (hout.trans toPath_out.symm) plain_out storable_out (toPath_assets ▸ htarget)
    shelved_assets hartifacts hfile isRebuild hreliable habsolute hwithin

end Bundler

end Bindery
