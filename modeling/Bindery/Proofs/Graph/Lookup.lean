import Bindery.Proofs.Path
import Bindery.Graph.Lookup

/-!
# What a lookup finds

Below an absolute root a lookup finds only files that are there, by their absolute paths. The id of
a file is then a matter of its location alone, so that as many ids can be found as there are files.

* `Lookup.resolve?_spec` : what a lookup finds is a file, and its path is absolute.
* `ModuleId.ofPath?_eq_ofLocation?` : the id of an absolute path.
-/

namespace Bindery

namespace Lookup

variable {l : Lookup} {p : Project} {candidate directory specifier file : String}

theorem isFile_of_probe? (h : l.probe? p candidate = some file) : p.isFile file = true :=
  List.find?_some h

theorem isAbsolute_of_probe? (hcandidate : Path.isAbsolute candidate = true)
    (h : l.probe? p candidate = some file) : Path.isAbsolute file = true := by
  have hmem := List.mem_of_find?_eq_some h
  simp only [candidates, List.cons_append, List.mem_cons, List.mem_append, List.mem_map] at hmem
  rcases hmem with rfl | ⟨e, -, rfl⟩ | hindex
  · exact hcandidate
  · exact Path.isAbsolute_append hcandidate e
  · split at hindex
    · rcases List.mem_map.1 hindex with ⟨e, -, rfl⟩
      exact Path.isAbsolute_join hcandidate _
    · simp at hindex

theorem packageMain?_spec (hdirectory : Path.isAbsolute directory = true)
    (h : l.packageMain? p directory = some file) :
    p.isFile file = true ∧ Path.isAbsolute file = true := by
  simp only [packageMain?, Option.bind_eq_bind, Option.bind_eq_some_iff] at h
  rcases h with ⟨bytes, -, main, -, hprobe⟩
  have habsolute := Path.isAbsolute_clean (Path.isAbsolute_join hdirectory main)
  exact ⟨isFile_of_probe? hprobe, isAbsolute_of_probe? habsolute hprobe⟩

/-- Going up from a directory below the root of the file system stays below it. -/
theorem exists_cons_of_mem_upward {stop cs : List Path.Component} (above : List Path.Component)
    (h : cs ∈ upward stop (above ++ [.root])) : ∃ below, cs = .root :: below := by
  induction above with
  | nil =>
    simp only [List.nil_append, upward, decide_true, Bool.or_true, if_true,
      List.mem_singleton] at h
    exact ⟨[], h⟩
  | cons c r ih =>
    simp only [List.cons_append, upward, List.mem_cons] at h
    rcases h with rfl | h
    · exact ⟨r.reverse ++ [c], by simp⟩
    · split at h
      · simp at h
      · exact ih h

theorem isAbsolute_of_mem_searchDirectories (hdirectory : Path.isAbsolute directory = true)
    {dir : String} (h : dir ∈ l.searchDirectories directory) : Path.isAbsolute dir = true := by
  rcases List.mem_map.1 h with ⟨cs, hcs, rfl⟩
  rw [Path.components_of_isAbsolute hdirectory, List.reverse_cons] at hcs
  rcases exists_cons_of_mem_upward _ hcs with ⟨below, rfl⟩
  exact Path.isAbsolute_ofComponents below

theorem resolvePackage?_spec (hdirectory : Path.isAbsolute directory = true)
    (h : l.resolvePackage? p specifier directory = some file) :
    p.isFile file = true ∧ Path.isAbsolute file = true := by
  rcases List.exists_of_findSome?_eq_some h with ⟨dir, hdir, hfound⟩
  have hdir := isAbsolute_of_mem_searchDirectories hdirectory hdir
  have hcandidate : Path.isAbsolute (packageIn dir specifier) = true :=
    Path.isAbsolute_clean (Path.isAbsolute_join (Path.isAbsolute_join hdir _) _)
  rcases Option.or_eq_some_iff.1 hfound with hprobe | ⟨-, hmain⟩
  · exact ⟨isFile_of_probe? hprobe, isAbsolute_of_probe? hcandidate hprobe⟩
  · exact packageMain?_spec hcandidate hmain

theorem isAbsolute_directoryOf {importer : Option String} (hroot : Path.isAbsolute l.root = true)
    (himporter : ∀ path ∈ importer, Path.isAbsolute path = true) :
    Path.isAbsolute (l.directoryOf importer) = true := by
  unfold directoryOf
  cases hparent : importer.bind Path.parent? with
  | none => exact hroot
  | some directory =>
    rcases Option.bind_eq_some_iff.1 hparent with ⟨path, hpath, hdir⟩
    exact Path.isAbsolute_of_parent? (himporter path hpath) hdir

/-- Below an absolute root, a lookup from an absolute path finds a file by its absolute path. -/
theorem resolve?_spec {importer : Option String} (hroot : Path.isAbsolute l.root = true)
    (himporter : ∀ path ∈ importer, Path.isAbsolute path = true)
    (h : l.resolve? p specifier importer = some file) :
    p.isFile file = true ∧ Path.isAbsolute file = true := by
  have hdirectory := isAbsolute_directoryOf hroot himporter
  have hnear : ∀ {base path : String}, Path.isAbsolute base = true →
      l.probe? p (Path.clean (Path.join base path)) = some file →
      p.isFile file = true ∧ Path.isAbsolute file = true := by
    intro base path hbase hfile
    have habsolute := Path.isAbsolute_clean (Path.isAbsolute_join hbase path)
    exact ⟨isFile_of_probe? hfile, isAbsolute_of_probe? habsolute hfile⟩
  unfold resolve? at h
  dsimp only at h
  split at h
  · exact absurd h (by simp)
  · split at h
    · exact hnear hroot h
    · split at h
      · exact hnear hdirectory h
      · split at h
        · rcases Option.or_eq_some_iff.1 h with hfile | ⟨-, hpackage⟩
          · exact hnear hdirectory hfile
          · exact resolvePackage?_spec hdirectory hpackage
        · exact resolvePackage?_spec hdirectory h

end Lookup

/-! ## Ids of files -/

namespace ModuleId

/-- The id of the file at a location. -/
def ofLocation? (root : String) (loc : Location) : Option ModuleId :=
  ofCleaned? root (Path.ofComponents (.root :: loc.map .name))

/-- The id of a file with an absolute path depends on its location only. -/
theorem ofPath?_eq_ofLocation? {path : String} (h : Path.isAbsolute path = true)
    (root directory : String) :
    ofPath? root path = ofLocation? root (Location.ofPath directory path) := by
  rw [ofPath?, ofLocation?, Path.join_of_isAbsolute h, Path.clean_of_isAbsolute h directory]

end ModuleId

end Bindery
