import Bindery.Proofs.Graph.Lookup
import Bindery.Proofs.Scan.Imports
import Bindery.Graph.Build

/-!
# What reading a module gives

A module that is read has the imports of its source, each with the target that a lookup finds now,
and one failure for each lookup that finds nothing.

* `resolveImports_eq` : what looking up some imports gives when it gives something.
* `resolveImports_of_found` : when every import is found there is no failure.
* `load_spec`, `load_of_found` : the module that a task reads, and its failures.
* `exists_file_of_mem_targets` : the targets of a module that is read are files, or could not be
  found.
-/

namespace Bindery

namespace Module

/-- The targets of the imports, in source order. -/
def targets (m : Module) : List ModuleId := m.imports.filterMap (·.resolved)

theorem mem_targets {m : Module} {t : ModuleId} :
    t ∈ m.targets ↔ ∃ i ∈ m.imports, i.resolved = some t := List.mem_filterMap

theorem map_fst_dependencies (m : Module) : m.dependencies.map (·.1) = m.targets := by
  simp only [dependencies, targets, List.map_filterMap, Option.map_map]
  congr 1
  funext i
  cases i.resolved <;> rfl

end Module

namespace GraphBuilder

variable {b : GraphBuilder} {p : Project} {id : ModuleId} {path : String} {imports : List Import}

/-- What a specifier means in a file: the file that a lookup finds. -/
def meaning? (b : GraphBuilder) (p : Project) (path specifier : String) : Option ModuleId :=
  (b.lookup.resolve? p specifier (some path)).bind (ModuleId.ofPath? b.lookup.root)

/-- The target of an import: what it means, or, where a lookup finds nothing, a stand-in if there
are stand-ins. -/
def target? (b : GraphBuilder) (p : Project) (id : ModuleId) (path specifier : String) :
    Option ModuleId :=
  if (b.lookup.resolve? p specifier (some path)).isSome then b.meaning? p path specifier
  else if b.stubUnresolved then some (.missing specifier (some id))
  else none

/-- An import with its target. -/
def linked (b : GraphBuilder) (p : Project) (id : ModuleId) (path : String) (i : Import) : Import :=
  { i with resolved := b.target? p id path i.specifier }

theorem linked_resolved (i : Import) :
    (b.linked p id path i).resolved = b.target? p id path i.specifier := by
  simp only [linked]

theorem linked_specifier (i : Import) : (b.linked p id path i).specifier = i.specifier := by
  simp only [linked]

/-- The failures of looking some imports up. -/
def unresolved (b : GraphBuilder) (p : Project) (id : ModuleId) (path : String)
    (imports : List Import) : List GraphError :=
  (imports.filter fun i => (b.lookup.resolve? p i.specifier (some path)).isNone).map fun i =>
    .unresolved i.specifier (some id)

/-- Looking imports up gives each its target and tells of those that are not found. -/
theorem resolveImports_eq (hfresh : ∀ i ∈ imports, i.resolved = none)
    {done : List Import} {errors : List GraphError}
    (h : b.resolveImports p id path imports = some (done, errors)) :
    done = imports.map (b.linked p id path) ∧ errors = b.unresolved p id path imports := by
  induction imports generalizing done errors with
  | nil =>
    simp only [resolveImports, Option.some.injEq, Prod.mk.injEq] at h
    exact ⟨h.1 ▸ rfl, h.2 ▸ rfl⟩
  | cons i r ih =>
    have hrest : ∀ i ∈ r, i.resolved = none := fun j hj => hfresh j (List.mem_cons_of_mem _ hj)
    unfold resolveImports at h
    split at h
    · next file hfile =>
      simp only [Option.bind_eq_bind, Option.bind_eq_some_iff] at h
      rcases h with ⟨target, htarget, ⟨done', errors'⟩, hr, h⟩
      simp only [Option.pure_def, Option.some.injEq, Prod.mk.injEq] at h
      rcases h with ⟨rfl, rfl⟩
      rcases ih hrest hr with ⟨rfl, rfl⟩
      simp [linked, target?, meaning?, unresolved, hfile, htarget]
    · next hnone =>
      simp only [Option.bind_eq_bind, Option.bind_eq_some_iff] at h
      rcases h with ⟨⟨done', errors'⟩, hr, h⟩
      simp only [Option.pure_def, Option.some.injEq, Prod.mk.injEq] at h
      rcases h with ⟨rfl, rfl⟩
      rcases ih hrest hr with ⟨rfl, rfl⟩
      simp [linked, target?, unresolved, hnone, hfresh i List.mem_cons_self]

/-- When every import means something, there is nothing to tell of. -/
theorem resolveImports_of_found (id : ModuleId)
    (h : ∀ i ∈ imports, (b.meaning? p path i.specifier).isSome = true) :
    b.resolveImports p id path imports = some (imports.map (b.linked p id path), []) := by
  induction imports with
  | nil => rfl
  | cons i r ih =>
    rcases Option.isSome_iff_exists.1 (h i List.mem_cons_self) with ⟨target, htarget⟩
    rcases Option.bind_eq_some_iff.1 htarget with ⟨file, hfile, hid⟩
    have hrest := ih fun j hj => h j (List.mem_cons_of_mem _ hj)
    simp [resolveImports, hfile, hid, hrest, linked, target?, htarget]

/-- The imports of a source as they stand in it. -/
def written (b : GraphBuilder) (id : ModuleId) (source : ByteArray) : List Import :=
  (Module.ofSource id (id.toPath b.lookup.root) source).imports

/-- The module of a source, with imports that were looked up. -/
def readFrom (b : GraphBuilder) (p : Project) (id : ModuleId) (source : ByteArray) : Module :=
  { Module.ofSource id (id.toPath b.lookup.root) source with
    imports := (b.written id source).map (b.linked p id (id.toPath b.lookup.root)) }

variable {source : ByteArray}

theorem readFrom_id : (b.readFrom p id source).id = id := rfl

theorem readFrom_path : (b.readFrom p id source).path = id.toPath b.lookup.root := rfl

theorem readFrom_imports : (b.readFrom p id source).imports =
    (b.written id source).map (b.linked p id (id.toPath b.lookup.root)) := by
  simp only [readFrom]

/-- A module that was read has the imports of its source with their targets. -/
theorem load_spec {m : Module} {errors : List GraphError} (h : b.load p id = .ok (m, errors)) :
    ∃ source, p.read? (id.toPath b.lookup.root) = some source ∧ m = b.readFrom p id source ∧
      errors = b.unresolved p id (id.toPath b.lookup.root) (b.written id source) := by
  unfold load at h
  dsimp only at h
  split at h
  · simp at h
  · next source hsource =>
    split at h
    · next imports errors' hresolve =>
      simp only [Except.ok.injEq, Prod.mk.injEq] at h
      rcases h with ⟨rfl, rfl⟩
      have hfresh : ∀ i ∈ b.written id source, i.resolved = none :=
        fun i hi => Module.resolved_of_mem_imports_ofSource hi
      rcases resolveImports_eq hfresh hresolve with ⟨rfl, rfl⟩
      exact ⟨source, hsource, rfl, rfl⟩
    · simp at h

/-- When every import of a file means something, reading it gives a module and no failure. -/
theorem load_of_found (hsource : p.read? (id.toPath b.lookup.root) = some source)
    (h : ∀ i ∈ b.written id source,
      (b.meaning? p (id.toPath b.lookup.root) i.specifier).isSome = true) :
    b.load p id = .ok (b.readFrom p id source, []) := by
  have hresolve := resolveImports_of_found id h
  unfold written at hresolve
  simp only [load, hsource, hresolve]
  rfl

theorem id_of_load {m : Module} {errors : List GraphError} (h : b.load p id = .ok (m, errors)) :
    m.id = id := by
  rcases load_spec h with ⟨source, -, rfl, -⟩
  exact readFrom_id

/-- A file that is read is listed. -/
theorem exists_mem_files_of_read? {path : String} {source : ByteArray}
    (h : p.read? path = some source) : (p.locate path, source) ∈ p.files.files := by
  have hfind : p.files.nodes.lookup (p.locate path) = some (.file source) := by
    simp only [Project.read?, FileTree.read?, FileTree.find?] at h
    split at h
    · next bytes hbytes => rw [hbytes, Option.some.inj h]
    · simp at h
  rcases List.lookup_eq_some_iff.1 hfind with ⟨before, after, hnodes, -⟩
  refine List.mem_filterMap.2 ⟨(p.locate path, .file source), ?_, rfl⟩
  exact hnodes ▸ List.mem_append_right _ List.mem_cons_self

/-- A module that is read has at most four imports for each byte of some file. -/
theorem exists_length_imports_le_of_load {m : Module} {errors : List GraphError}
    (h : b.load p id = .ok (m, errors)) :
    ∃ f ∈ p.files.files, m.imports.length ≤ 4 * f.2.size := by
  rcases load_spec h with ⟨source, hsource, rfl, -⟩
  refine ⟨_, exists_mem_files_of_read? hsource, ?_⟩
  rw [readFrom_imports, List.length_map]
  exact Module.length_imports_ofSource_le id _ source

/-- Below an absolute root, the path of an importer is absolute. -/
theorem isAbsolute_importer {root : String} (hroot : Path.isAbsolute root = true) (id : ModuleId) :
    ∀ path ∈ some (id.toPath root), Path.isAbsolute path = true := by
  intro path hpath
  exact Option.some.inj hpath ▸ Path.isAbsolute_join hroot id.text

/-- Below an absolute root, the targets of a module that is read are files that are there, or could
not be found. -/
theorem exists_file_of_mem_targets (hroot : Path.isAbsolute b.lookup.root = true) {m : Module}
    {errors : List GraphError} (h : b.load p id = .ok (m, errors)) {t : ModuleId}
    (ht : t ∈ m.targets) (hmissing : t.isMissing = false) :
    ∃ f ∈ p.files.files, ModuleId.ofLocation? b.lookup.root f.1 = some t := by
  rcases load_spec h with ⟨source, -, rfl, -⟩
  rcases Module.mem_targets.1 ht with ⟨i, hi, hit⟩
  rw [readFrom_imports] at hi
  rcases List.mem_map.1 hi with ⟨j, -, rfl⟩
  simp only [linked, target?] at hit
  split at hit
  · rcases Option.bind_eq_some_iff.1 hit with ⟨file, hfile, hid⟩
    rcases Lookup.resolve?_spec hroot (isAbsolute_importer hroot id) hfile with
      ⟨hisFile, habsolute⟩
    rcases Option.isSome_iff_exists.1 hisFile with ⟨bytes, hbytes⟩
    refine ⟨_, exists_mem_files_of_read? hbytes, ?_⟩
    rw [← hid, ModuleId.ofPath?_eq_ofLocation? habsolute _ p.base]
    rfl
  · split at hit
    · rw [← Option.some.inj hit] at hmissing
      simp [ModuleId.isMissing_missing] at hmissing
    · simp at hit

end GraphBuilder

end Bindery
