import Bindery.Proofs.Graph.Package

/-!
# What a lookup depends on

A lookup tries paths in a fixed order and takes the first one at which there is a file. For a bare
specifier it does so in one directory after the other, from that of the importer up to the root, or up
to the root of the file system where the importer lies outside. Here the order is told without the
search, and with it which files a lookup can depend on.

That holds as long as no extension leads out of the directory of an index file. Index files are tried
only where there is something at the candidate, and for an extension that does lead out the file that
is found says nothing about that.

* `Lookup.tried` : the paths that are tried for a candidate.
* `Lookup.mem_upward_iff` : which directories are on the way up.
* `Lookup.Hit` : what is found for a package in one directory.
* `Lookup.Reached` : the directories in which a package is looked for.
* `Lookup.LooksAt` : the locations that are looked at for a specifier.
* `SameAt.resolve?_same` : nothing else makes a difference.
* `resolve?_nearest` : what a lookup finds.
* `not_unchanged_outward` : an extension that leads out.
-/

namespace Bindery

namespace Path

variable {base path : String} {cs acc done : List Component}

/-- A way up that has nothing to go back over is never worked off. -/
theorem up_mem_foldl_step (h : .up ∈ acc) : .up ∈ cs.foldl step acc := by
  induction cs generalizing acc with
  | nil => exact h
  | cons c r ih =>
    refine ih ?_
    cases c with
    | here => exact h
    | root => exact List.mem_cons_of_mem _ h
    | name text => exact List.mem_cons_of_mem _ h
    | up =>
      cases acc with
      | nil => cases h
      | cons a above =>
        cases a with
        | root => exact h
        | name text => exact (List.mem_cons.1 h).resolve_left Component.noConfusion
        | here => exact List.mem_cons_self
        | up => exact List.mem_cons_self

/-- What does not lead out of where it starts is the same wherever it starts. -/
theorem foldl_step_append (h : .up ∉ cs.foldl step acc) (done : List Component) :
    cs.foldl step (acc ++ done) = cs.foldl step acc ++ done := by
  induction cs generalizing acc with
  | nil => rfl
  | cons c r ih =>
    have hstep : step (acc ++ done) c = step acc c ++ done := by
      cases c with
      | here => rfl
      | root => rfl
      | name text => rfl
      | up =>
        -- going up takes off a name, as it would stay for good if there were none
        have hin : .up ∉ step acc .up := by
          intro hup
          have hlater : .up ∈ r.foldl step (step acc .up) := up_mem_foldl_step hup
          exact h hlater
        cases acc with
        | nil => exact absurd List.mem_cons_self hin
        | cons a above =>
          cases a with
          | root => rfl
          | name text => rfl
          | here => exact absurd List.mem_cons_self hin
          | up => exact absurd List.mem_cons_self hin
    rw [List.foldl_cons, hstep]
    exact ih h

theorem foldl_step_components (h : isAbsolute path = false) (done : List Component) :
    (components path).foldl step done = ((segments path).map .ofSegment).foldl step done := by
  simp only [components, h, Bool.false_eq_true, if_false]
  split
  · rfl
  · rfl

end Path

namespace Location

open Path

/-- Going on from an absolute path by one that does not lead out of where it starts. -/
theorem ofPath_join_of_inward {base path : String} (hbase : isAbsolute base = true)
    (hpath : isAbsolute path = false) (hin : .up ∉ cleanComponents (components path))
    (dir : String) : ofPath dir (join base path) = ofPath dir base ++ ofPath "" path := by
  have hnames : .up ∉ ((segments path).map Component.ofSegment).foldl step [] := by
    rw [← foldl_step_components hpath]
    simpa [cleanComponents] using hin
  have hclean : cleanComponents (components (join base path)) =
      cleanComponents (components base) ++ cleanComponents (components path) := by
    have happend := foldl_step_append hnames ((components base).foldl step [])
    rw [List.nil_append] at happend
    simp only [cleanComponents, components_join hbase hpath, List.foldl_append, happend,
      foldl_step_components hpath, List.reverse_append]
  have hempty : join "" path = path := by simp [join]
  rw [ofPath, join_of_isAbsolute (isAbsolute_join hbase path), hclean, List.filterMap_append,
    ofPath, join_of_isAbsolute hbase, ofPath, hempty]

end Location

namespace Lookup

open Path

variable {stop way cs above : List Component}

/-! ## The way up -/

/-- The directories on the way up are those that begin a path, as far as the one at which the way
ends. -/
theorem mem_upward_iff (hroot : .root ∉ above) :
    way ∈ upward stop (above ++ [.root]) ↔
      way <+: .root :: above.reverse ∧ way ≠ [] ∧
        (stop <+: .root :: above.reverse → stop <+: way) := by
  induction above with
  | nil =>
    have hone : way <+: [Component.root] ∧ way ≠ [] ↔ way = [.root] := by
      constructor
      · rintro ⟨hway, hne⟩
        rcases List.prefix_cons_iff.1 hway with rfl | ⟨t, rfl, ht⟩
        · exact absurd rfl hne
        · rw [List.prefix_nil.1 ht]
      · rintro rfl
        simp
    simp only [List.nil_append, upward, decide_true, Bool.or_true, if_true, List.mem_singleton,
      List.reverse_singleton, List.reverse_nil, ← and_assoc, hone]
    constructor
    · rintro rfl
      exact ⟨rfl, id⟩
    · exact And.left
  | cons c r ih =>
    have hr : .root ∉ r := fun hmem => hroot (List.mem_cons_of_mem c hmem)
    have hc : c ≠ .root := by
      rintro rfl
      exact hroot List.mem_cons_self
    have hall : Component.root :: (c :: r).reverse = (.root :: r.reverse) ++ [c] := by simp
    have hback : (c :: (r ++ [.root])).reverse = (.root :: r.reverse) ++ [c] := by simp
    rw [List.cons_append, upward, hback, hall, List.mem_cons, List.prefix_concat_iff,
      List.prefix_concat_iff]
    by_cases hstop : stop = (Component.root :: r.reverse) ++ [c]
    · -- the way ends here, and nothing shorter has the end at its start
      rw [if_pos (by simp [hstop]), hstop]
      constructor
      · rintro (rfl | hnone)
        · exact ⟨.inl rfl, by simp, fun _ => List.prefix_refl _⟩
        · cases hnone
      · rintro ⟨rfl | hway, -, hend⟩
        · exact .inl rfl
        · have hlong := (hend (.inl rfl)).length_le
          have hshort := hway.length_le
          simp only [List.length_append, List.length_singleton] at hlong
          omega
    · -- the directory is on the way, and the way goes on from the one above it
      have hgoOn : ¬(Component.root :: r.reverse) ++ [c] = stop := Ne.symm hstop
      simp only [hgoOn, hc, decide_false, Bool.or_self, Bool.false_eq_true, if_false, ih hr, hstop,
        false_or]
      constructor
      · rintro (rfl | ⟨hway, hne, hend⟩)
        · exact ⟨.inl rfl, by simp, fun h => h.trans (List.prefix_append _ _)⟩
        · exact ⟨.inr hway, hne, hend⟩
      · rintro ⟨rfl | hway, hne, hend⟩
        · exact .inl rfl
        · exact .inr ⟨hway, hne, hend⟩

theorem length_le_of_mem_upward (h : way ∈ upward stop cs) : way.length ≤ cs.length := by
  induction cs with
  | nil => simp [List.mem_singleton.1 h]
  | cons c r ih =>
    rcases List.mem_cons.1 h with rfl | h
    · simp
    · split at h
      · cases h
      · exact Nat.le_succ_of_le (ih h)

/-- Each directory on the way is the one before it less its last component. -/
theorem length_upward_le (stop above : List Component) :
    (upward stop (above ++ [.root])).length ≤ above.length + 1 := by
  induction above with
  | nil => simp [upward]
  | cons c r ih =>
    rw [List.cons_append, upward, List.length_cons, List.length_cons]
    split
    · simp
    · omega

/-- The nearest directory comes first. -/
theorem pairwise_upward (stop cs : List Component) :
    (upward stop cs).Pairwise fun near far => far.length < near.length := by
  induction cs with
  | nil => exact List.pairwise_singleton _ _
  | cons c r ih =>
    refine List.Pairwise.cons ?_ ?_
    · intro far hfar
      split at hfar
      · cases hfar
      · have := length_le_of_mem_upward hfar
        simp only [List.length_reverse, List.length_cons]
        omega
    · split
      · exact List.Pairwise.nil
      · exact ih

variable {l : Lookup} {p p' : Project} {specifier importer directory candidate file : String}
  {place loc : Location}

/-! ## Candidates -/

/-- No extension makes the path of an index file lead out of the directory that it is looked for
in. -/
def Inward (l : Lookup) : Prop :=
  ∀ e ∈ l.extensions, .up ∉ cleanComponents (components ("index" ++ e))

instance (l : Lookup) : Decidable l.Inward :=
  inferInstanceAs (Decidable (∀ e ∈ l.extensions, .up ∉ cleanComponents (components ("index" ++ e))))

/-- The paths that are tried for a candidate, in this order: the candidate, the candidate with each
extension, and an index file with each extension under it. -/
def tried (l : Lookup) (candidate : String) : List String :=
  candidate :: (l.extensions.map (candidate ++ ·) ++
    l.extensions.map fun e => join candidate ("index" ++ e))

/-- The file is the first of these paths at which there is one. -/
def IsFirst (p : Project) (paths : List String) (file : String) : Prop :=
  ∃ before after, paths = before ++ file :: after ∧ p.isFile file = true ∧
    ∀ path ∈ before, p.isFile path = false

theorem isFirst_iff {paths : List String} :
    IsFirst p paths file ↔ paths.find? p.isFile = some file := by
  rw [List.find?_eq_some_iff_append]
  constructor
  · rintro ⟨before, after, hpaths, hfile, hnone⟩
    exact ⟨hfile, before, after, hpaths, fun path hpath => by simp [hnone path hpath]⟩
  · rintro ⟨hfile, before, after, hpaths, hnone⟩
    exact ⟨before, after, hpaths, hfile, fun path hpath => by simpa using hnone path hpath⟩

/-- Where a file is at a location or below it, something is found at the location. -/
theorem has_of_isFile_append {below : Location} (h : p.files.isFile (place ++ below) = true) :
    p.files.has place = true := by
  rw [FileTree.has, Bool.or_eq_true]
  cases hfile : p.files.isFile place with
  | true => exact .inl rfl
  | false =>
    have hread : p.files.read? place = none := by simpa [FileTree.isFile] using hfile
    have hne : place ≠ place ++ below := by
      intro heq
      rw [← heq, hfile] at h
      cases h
    obtain ⟨bytes, hbytes⟩ := FileTree.isFile_iff.1 h
    exact .inr (FileTree.isDir_iff.2 ⟨hread,
      .inr ⟨_, _, FileTree.read?_eq_some_iff.1 hbytes, List.prefix_append place below, hne⟩⟩)

/-- An index file that is there lies in a directory that is there, so it makes no difference that
index files are tried in directories only. -/
theorem probe?_toPath (hinward : l.Inward) (hplace : place.Plain) :
    l.probe? p place.toPath = (l.tried place.toPath).find? p.isFile := by
  rw [probe?, candidates, tried, List.cons_append]
  split
  · rfl
  · next hhas =>
    -- there is nothing at the candidate, so there is no index file below it
    have hindex : (l.extensions.map fun e => join place.toPath ("index" ++ e)).find? p.isFile =
        none := by
      rw [List.find?_eq_none]
      intro path hpath hfile
      obtain ⟨e, he, rfl⟩ := List.mem_map.1 hpath
      have hrelative : isAbsolute ("index" ++ e) = false := by simp [isAbsolute]
      rw [Project.isFile, Project.locate, Location.ofPath_join_of_inward
        (Location.isAbsolute_toPath place) hrelative (hinward e he),
        Location.ofPath_toPath hplace] at hfile
      exact hhas ((Project.has_toPath hplace).trans (has_of_isFile_append hfile))
    simp only [List.find?_cons, List.find?_append, hindex, List.append_nil, Option.or_none]

/-- What is found for a candidate is the first of the paths that are tried. -/
theorem probe?_clean_eq_some_iff (hinward : l.Inward) (hcandidate : isAbsolute candidate = true) :
    l.probe? p (clean candidate) = some file ↔ IsFirst p (l.tried (clean candidate)) file := by
  rw [isFirst_iff, Location.clean_eq_toPath hcandidate "",
    probe?_toPath hinward (Location.plain_ofPath "" candidate)]

theorem probe?_clean_eq_none_iff (hinward : l.Inward) (hcandidate : isAbsolute candidate = true) :
    l.probe? p (clean candidate) = none ↔
      ∀ path ∈ l.tried (clean candidate), p.isFile path = false := by
  rw [Location.clean_eq_toPath hcandidate "",
    probe?_toPath hinward (Location.plain_ofPath "" candidate), List.find?_eq_none]
  simp

/-! ## Packages -/

/-- The file is found for a package in a directory: for the directory of the package as a candidate,
or else for what its description names. -/
inductive Hit (l : Lookup) (p : Project) (package file : String) : Prop
  | direct (h : IsFirst p (l.tried package) file)
  | described {bytes : ByteArray} {main : String}
      (hnone : ∀ path ∈ l.tried package, p.isFile path = false)
      (hread : p.read? (join package "package.json") = some bytes)
      (hmain : mainField? bytes = some main)
      (h : IsFirst p (l.tried (clean (join package main))) file)

/-- A directory on the way from the given one upwards, which ends at the root or, where it does not
pass the root, at the root of the file system. Directories are told by their components. -/
structure OnWay (l : Lookup) (directory : String) (way : List Component) : Prop where
  above : way <+: components directory
  nonempty : way ≠ []
  inside : components l.root <+: components directory → components l.root <+: way

/-- A directory on the way in which a package is looked for, since nothing was found in a nearer
one. -/
structure Reached (l : Lookup) (p : Project) (wanted directory : String) (way : List Component) :
    Prop where
  onWay : l.OnWay directory way
  unfound : ∀ nearer, l.OnWay directory nearer → way.length < nearer.length →
    ∀ file, ¬l.Hit p (packageIn (ofComponents nearer) wanted) file

theorem mem_upward_iff_onWay (hdirectory : isAbsolute directory = true) :
    way ∈ upward (components l.root) (components directory).reverse ↔ l.OnWay directory way := by
  have hroot : .root ∉ ((segments directory).map Component.ofSegment).reverse := fun hmem =>
    root_notMem_map_ofSegment _ (List.mem_reverse.1 hmem)
  have hcomponents := components_of_isAbsolute hdirectory
  rw [hcomponents, List.reverse_cons, mem_upward_iff hroot, List.reverse_reverse, ← hcomponents]
  exact ⟨fun ⟨habove, hne, hinside⟩ => ⟨habove, hne, hinside⟩,
    fun ⟨habove, hne, hinside⟩ => ⟨habove, hne, hinside⟩⟩

theorem length_searchDirectories_le (hdirectory : isAbsolute directory = true) :
    (l.searchDirectories directory).length ≤ (components directory).length := by
  rw [searchDirectories, List.length_map, components_of_isAbsolute hdirectory, List.reverse_cons]
  have hle := length_upward_le (components l.root)
    ((segments directory).map Component.ofSegment).reverse
  simpa using hle

theorem isAbsolute_packageIn (hdirectory : isAbsolute directory = true) (wanted : String) :
    isAbsolute (join (join directory "node_modules") wanted) = true :=
  isAbsolute_join (isAbsolute_join hdirectory _) wanted

theorem OnWay.isAbsolute (h : l.OnWay directory way) (hdirectory : isAbsolute directory = true) :
    isAbsolute (ofComponents way) = true := by
  obtain ⟨rest, hrest⟩ := h.above
  rw [components_of_isAbsolute hdirectory] at hrest
  cases way with
  | nil => exact absurd rfl h.nonempty
  | cons c r =>
    obtain ⟨rfl, -⟩ := List.cons.inj hrest
    exact isAbsolute_ofComponents r

theorem foundIn?_eq_some_iff (hinward : l.Inward) (hdirectory : isAbsolute directory = true)
    {wanted : String} : l.foundIn? p wanted directory = some file ↔
      l.Hit p (packageIn directory wanted) file := by
  have hpackage := isAbsolute_packageIn hdirectory wanted
  have hmain : ∀ main, isAbsolute (join (packageIn directory wanted) main) = true :=
    fun main => isAbsolute_join (isAbsolute_clean hpackage) main
  rw [foundIn?, Option.or_eq_some_iff]
  constructor
  · rintro (hprobe | ⟨hnone, hdescribed⟩)
    · exact .direct ((probe?_clean_eq_some_iff hinward hpackage).1 hprobe)
    · simp only [packageMain?, Option.bind_eq_bind, Option.bind_eq_some_iff] at hdescribed
      obtain ⟨bytes, hread, main, hnamed, hprobe⟩ := hdescribed
      exact .described ((probe?_clean_eq_none_iff hinward hpackage).1 hnone) hread hnamed
        ((probe?_clean_eq_some_iff hinward (hmain main)).1 hprobe)
  · intro hhit
    cases hhit with
    | direct h => exact .inl ((probe?_clean_eq_some_iff hinward hpackage).2 h)
    | described hnone hread hnamed h =>
      refine .inr ⟨(probe?_clean_eq_none_iff hinward hpackage).2 hnone, ?_⟩
      simp only [packageMain?, Option.bind_eq_bind, Option.bind_eq_some_iff]
      exact ⟨_, hread, _, hnamed, (probe?_clean_eq_some_iff hinward (hmain _)).2 h⟩

/-- Of directories that become shorter and shorter, the first one that counts is the longest. -/
theorem findSome?_eq_some_iff_of_pairwise {ways : List (List Component)}
    {f : List Component → Option String}
    (h : ways.Pairwise fun near far => far.length < near.length) :
    ways.findSome? f = some file ↔ ∃ way ∈ ways, f way = some file ∧
      ∀ nearer ∈ ways, way.length < nearer.length → f nearer = none := by
  constructor
  · intro hsome
    obtain ⟨before, way, after, rfl, hfound, hnone⟩ := List.findSome?_eq_some_iff.1 hsome
    refine ⟨way, by simp, hfound, ?_⟩
    intro nearer hnearer hlonger
    rcases List.mem_append.1 hnearer with hbefore | hafter
    · exact hnone nearer hbefore
    · rcases List.mem_cons.1 hafter with rfl | hafter
      · omega
      · have hshorter := (List.pairwise_cons.1 (List.pairwise_append.1 h).2.1).1 nearer hafter
        omega
  · rintro ⟨way, hway, hfound, hnone⟩
    obtain ⟨before, after, rfl⟩ := List.append_of_mem hway
    refine List.findSome?_eq_some_iff.2 ⟨before, way, after, rfl, hfound, ?_⟩
    intro nearer hnearer
    exact hnone nearer (List.mem_append_left _ hnearer)
      ((List.pairwise_append.1 h).2.2 nearer hnearer way List.mem_cons_self)

/-- A package means what is found in the nearest directory in which anything is found. -/
theorem resolvePackage?_eq_some_iff (hinward : l.Inward) (hdirectory : isAbsolute directory = true)
    {wanted : String} : l.resolvePackage? p wanted directory = some file ↔
      ∃ way, l.Reached p wanted directory way ∧
        l.Hit p (packageIn (ofComponents way) wanted) file := by
  have hfound : ∀ way, l.OnWay directory way → ∀ file,
      l.foundIn? p wanted (ofComponents way) = some file ↔
        l.Hit p (packageIn (ofComponents way) wanted) file :=
    fun way hway file => foundIn?_eq_some_iff hinward (hway.isAbsolute hdirectory)
  rw [resolvePackage?_eq, searchDirectories, List.findSome?_map,
    findSome?_eq_some_iff_of_pairwise (pairwise_upward _ _)]
  simp only [mem_upward_iff_onWay hdirectory, Function.comp_apply]
  constructor
  · rintro ⟨way, hway, hfile, hnone⟩
    refine ⟨way, ⟨hway, ?_⟩, (hfound way hway file).1 hfile⟩
    intro nearer hnearer hlonger other hother
    have hsome := (hfound nearer hnearer other).2 hother
    rw [hnone nearer hnearer hlonger] at hsome
    cases hsome
  · rintro ⟨way, hreached, hhit⟩
    refine ⟨way, hreached.onWay, (hfound way hreached.onWay file).2 hhit, ?_⟩
    intro nearer hnearer hlonger
    rw [Option.eq_none_iff_forall_ne_some]
    intro other hother
    exact hreached.unfound nearer hnearer hlonger other ((hfound nearer hnearer other).1 hother)

/-! ## Specifiers -/

/-- The candidate that a rooted or a relative specifier names. -/
inductive Names (l : Lookup) (specifier importer : String) : String → Prop
  | rooted {path : String} (h : rooted? (wanted specifier) = some path) :
    Names l specifier importer (clean (join l.root path))
  | relative (h : isRelative (wanted specifier) = true) :
    Names l specifier importer (clean (join (l.directoryOf (some importer)) (wanted specifier)))

theorem wanted_ne_of_rooted? {path : String} (h : rooted? (wanted specifier) = some path) :
    wanted specifier ≠ "" := by
  intro hempty
  rw [hempty] at h
  cases h

theorem rooted?_of_isRelative {wanted : String} (h : isRelative wanted = true) :
    rooted? wanted = none := by
  simp only [isRelative, Bool.or_eq_true, decide_eq_true_eq, List.isPrefixOf_iff_prefix] at h
  rcases h with ((rfl | rfl) | ⟨r, hr⟩) | ⟨r, hr⟩
  · rfl
  · rfl
  · rw [rooted?, ← hr]
    rfl
  · rw [rooted?, ← hr]
    rfl

theorem Names.resolve?_eq (h : l.Names specifier importer candidate) :
    l.resolve? p specifier (some importer) = l.probe? p candidate := by
  cases h with
  | rooted h => simp [resolve?, wanted_ne_of_rooted? h, h]
  | relative h =>
    have hne : wanted specifier ≠ "" := by
      intro hempty
      rw [hempty] at h
      cases h
    simp [resolve?, hne, rooted?_of_isRelative h, h]

theorem isAbsolute_directory (hroot : isAbsolute l.root = true)
    (himporter : isAbsolute importer = true) :
    isAbsolute (l.directoryOf (some importer)) = true :=
  isAbsolute_directoryOf hroot fun _ hpath => Option.some.inj hpath ▸ himporter

theorem Names.exists_eq_clean (h : l.Names specifier importer candidate)
    (hroot : isAbsolute l.root = true) (himporter : isAbsolute importer = true) :
    ∃ path, isAbsolute path = true ∧ candidate = clean path := by
  cases h with
  | rooted h => exact ⟨_, isAbsolute_join hroot _, rfl⟩
  | relative h => exact ⟨_, isAbsolute_join (isAbsolute_directory hroot himporter) _, rfl⟩

theorem Bare.resolve?_eq {names : Location} (h : Bare (wanted specifier) names) :
    l.resolve? p specifier (some importer) =
      (if isStyleSheet importer then
        l.probe? p (clean (join (l.directoryOf (some importer)) (wanted specifier)))
      else none).or
        (l.resolvePackage? p (wanted specifier) (l.directoryOf (some importer))) := by
  cases hstyle : isStyleSheet importer with
  | true => simp [resolve?, h.nonempty, rooted?_of_unrooted h.unrooted, h.unrelated, hstyle]
  | false => simp [resolve?, h.nonempty, rooted?_of_unrooted h.unrooted, h.unrelated, hstyle]

/-- A specifier is empty, names a candidate, or is bare. -/
theorem names_or_bare (l : Lookup) (specifier importer : String) :
    wanted specifier = "" ∨ (∃ candidate, l.Names specifier importer candidate) ∨
      Bare (wanted specifier) (segments (wanted specifier)) := by
  by_cases hempty : wanted specifier = ""
  · exact .inl hempty
  · by_cases hrelative : isRelative (wanted specifier) = true
    · exact .inr (.inl ⟨_, .relative hrelative⟩)
    · cases hrooted : rooted? (wanted specifier) with
      | some path => exact .inr (.inl ⟨_, .rooted hrooted⟩)
      | none =>
        refine .inr (.inr ⟨hempty, rfl, ?_, by simpa using hrelative⟩)
        rw [← Bool.not_eq_true]
        intro habsolute
        obtain ⟨r, hr⟩ := isAbsolute_iff.1 habsolute
        rw [rooted?, hr] at hrooted
        cases hrooted

/-! ## What is looked at -/

/-- A path that is tried for the candidate means the location. -/
def Tries (l : Lookup) (p : Project) (candidate : String) (loc : Location) : Prop :=
  ∃ path ∈ l.tried candidate, p.locate path = loc

/-- The locations that are looked at for a package in one directory. Its description is one of them
where nothing was found before. -/
inductive TriesPackage (l : Lookup) (p : Project) (package : String) : Location → Prop
  | candidate {loc : Location} (h : l.Tries p package loc) : TriesPackage l p package loc
  | description (hnone : ∀ path ∈ l.tried package, p.isFile path = false) :
    TriesPackage l p package (p.locate (join package "package.json"))
  | main {loc : Location} {bytes : ByteArray} {main : String}
      (hnone : ∀ path ∈ l.tried package, p.isFile path = false)
      (hread : p.read? (join package "package.json") = some bytes)
      (hmain : mainField? bytes = some main) (h : l.Tries p (clean (join package main)) loc) :
    TriesPackage l p package loc

/-- The locations that are looked at for a specifier: those of the candidate that it names; for a bare
one in a style sheet those of the candidate that it would name as a relative one; and for a bare one
those of the packages in the directories that are reached. -/
inductive LooksAt (l : Lookup) (p : Project) (specifier importer : String) : Location → Prop
  | candidate {candidate : String} {loc : Location} (hnames : l.Names specifier importer candidate)
      (h : l.Tries p candidate loc) : LooksAt l p specifier importer loc
  | near {names loc : Location} (hbare : Bare (wanted specifier) names)
      (hstyle : isStyleSheet importer = true)
      (h : l.Tries p (clean (join (l.directoryOf (some importer)) (wanted specifier))) loc) :
    LooksAt l p specifier importer loc
  | package {names loc : Location} {way : List Component} (hbare : Bare (wanted specifier) names)
      (hreached : l.Reached p (wanted specifier) (l.directoryOf (some importer)) way)
      (h : l.TriesPackage p (packageIn (ofComponents way) (wanted specifier)) loc) :
    LooksAt l p specifier importer loc

/-- Two projects have the same files at some locations. -/
structure SameAt (p p' : Project) (locations : Location → Prop) : Prop where
  base : p'.base = p.base
  read : ∀ loc, locations loc → p'.files.read? loc = p.files.read? loc

theorem SameAt.read?_eq {locations : Location → Prop} (h : SameAt p p' locations) {path : String}
    (hpath : locations (p.locate path)) : p'.read? path = p.read? path := by
  have hlocate : p'.locate path = p.locate path := by rw [Project.locate, Project.locate, h.base]
  rw [Project.read?, Project.read?, hlocate, h.read _ hpath]

theorem SameAt.mono {locations fewer : Location → Prop} (h : SameAt p p' locations)
    (hfewer : ∀ loc, fewer loc → locations loc) : SameAt p p' fewer :=
  ⟨h.base, fun loc hloc => h.read loc (hfewer loc hloc)⟩

theorem SameAt.isFile_eq {locations : Location → Prop} (h : SameAt p p' locations) {path : String}
    (hpath : locations (p.locate path)) : p'.isFile path = p.isFile path := by
  have hread := h.read?_eq hpath
  rw [Project.read?, Project.read?] at hread
  rw [Project.isFile, Project.isFile, FileTree.isFile, FileTree.isFile, hread]

theorem SameAt.probe?_same (hinward : l.Inward) (hcandidate : isAbsolute candidate = true)
    (h : SameAt p p' (l.Tries p (clean candidate))) :
    l.probe? p' (clean candidate) = l.probe? p (clean candidate) := by
  rw [Location.clean_eq_toPath hcandidate ""] at h ⊢
  have hplain := Location.plain_ofPath "" candidate
  rw [probe?_toPath hinward hplain, probe?_toPath hinward hplain]
  rw [← List.head?_filter, ← List.head?_filter]
  exact congrArg List.head? (List.filter_congr fun path hpath => h.isFile_eq ⟨path, hpath, rfl⟩)

theorem SameAt.foundIn?_same (hinward : l.Inward) {wanted : String}
    (hdirectory : isAbsolute directory = true)
    (h : SameAt p p' (l.TriesPackage p (packageIn directory wanted))) :
    l.foundIn? p' wanted directory = l.foundIn? p wanted directory := by
  have hpackage := isAbsolute_packageIn hdirectory wanted
  have hcandidate : SameAt p p' (l.Tries p (packageIn directory wanted)) :=
    h.mono fun _ hloc => .candidate hloc
  have hprobe : l.probe? p' (packageIn directory wanted) = l.probe? p (packageIn directory wanted) :=
    hcandidate.probe?_same hinward hpackage
  rw [foundIn?, foundIn?, hprobe]
  cases hnear : l.probe? p (packageIn directory wanted) with
  | some file => simp only [Option.some_or]
  | none =>
    -- the description is looked at, and what it names is the same in both projects
    have hnone := (probe?_clean_eq_none_iff hinward hpackage).1 hnear
    have hread := h.read?_eq (.description hnone)
    simp only [Option.none_or, packageMain?, Option.bind_eq_bind, hread]
    cases hbytes : p.read? (join (packageIn directory wanted) "package.json") with
    | none => simp only [Option.bind_none]
    | some bytes =>
      cases hmain : mainField? bytes with
      | none => simp only [Option.bind_some, hmain, Option.bind_none]
      | some main =>
        have hnamed : SameAt p p' (l.Tries p (clean (join (packageIn directory wanted) main))) :=
          h.mono fun _ hloc => .main hnone hbytes hmain hloc
        simp only [Option.bind_some, hmain]
        exact hnamed.probe?_same hinward (isAbsolute_join (isAbsolute_clean hpackage) main)

/-- A search that goes the same way as far as it goes has the same end. -/
theorem findSome?_congr_of_unfound {ways : List (List Component)}
    {f g : List Component → Option String}
    (h : ∀ before way after, ways = before ++ way :: after → (∀ x ∈ before, f x = none) →
      g way = f way) : ways.findSome? g = ways.findSome? f := by
  induction ways with
  | nil => rfl
  | cons way r ih =>
    have hway : g way = f way := h [] way r rfl (by simp)
    rw [List.findSome?_cons, List.findSome?_cons, hway]
    cases hfound : f way with
    | some file => rfl
    | none =>
      refine ih ?_
      intro before next after hr hnone
      refine h (way :: before) next after (by rw [hr]; rfl) ?_
      simpa [hfound] using hnone

theorem SameAt.resolvePackage?_same (hinward : l.Inward) {wanted : String}
    (hdirectory : isAbsolute directory = true)
    (h : SameAt p p' fun loc => ∃ way, l.Reached p wanted directory way ∧
      l.TriesPackage p (packageIn (ofComponents way) wanted) loc) :
    l.resolvePackage? p' wanted directory = l.resolvePackage? p wanted directory := by
  rw [resolvePackage?_eq, resolvePackage?_eq, searchDirectories, List.findSome?_map,
    List.findSome?_map]
  refine findSome?_congr_of_unfound ?_
  intro before way after hways hnone
  have honWay : ∀ {x}, x ∈ before ++ way :: after ↔ l.OnWay directory x := by
    intro x
    rw [← hways, mem_upward_iff_onWay hdirectory]
  -- the directories before this one are all the nearer ones, and nothing was found in them
  have hreached : l.Reached p wanted directory way := by
    refine ⟨honWay.1 (by simp), ?_⟩
    intro nearer hnearer hlonger file hhit
    have hpairwise := hways ▸ pairwise_upward (components l.root) (components directory).reverse
    rcases List.mem_append.1 (honWay.2 hnearer) with hbefore | hafter
    · have hsome := (foundIn?_eq_some_iff hinward (hnearer.isAbsolute hdirectory)).2 hhit
      rw [← Function.comp_apply (f := l.foundIn? p wanted), hnone nearer hbefore] at hsome
      cases hsome
    · rcases List.mem_cons.1 hafter with rfl | hafter
      · omega
      · have hshorter :=
          (List.pairwise_cons.1 (List.pairwise_append.1 hpairwise).2.1).1 nearer hafter
        omega
  have hpackage : SameAt p p' (l.TriesPackage p (packageIn (ofComponents way) wanted)) :=
    h.mono fun _ hloc => ⟨way, hreached, hloc⟩
  exact hpackage.foundIn?_same hinward (hreached.onWay.isAbsolute hdirectory)

/-- Only what is looked at counts. -/
theorem SameAt.resolve?_same (hroot : isAbsolute l.root = true) (hinward : l.Inward)
    (himporter : isAbsolute importer = true)
    (h : SameAt p p' (l.LooksAt p specifier importer)) :
    l.resolve? p' specifier (some importer) = l.resolve? p specifier (some importer) := by
  have hdirectory := isAbsolute_directory hroot himporter
  rcases names_or_bare l specifier importer with hempty | ⟨candidate, hnames⟩ | hbare
  · simp [resolve?, hempty]
  · obtain ⟨path, hpath, rfl⟩ := hnames.exists_eq_clean hroot himporter
    have htries : SameAt p p' (l.Tries p (clean path)) := h.mono fun _ hloc => .candidate hnames hloc
    rw [hnames.resolve?_eq, hnames.resolve?_eq, htries.probe?_same hinward hpath]
  · have hpackage : SameAt p p' fun loc => ∃ way,
        l.Reached p (wanted specifier) (l.directoryOf (some importer)) way ∧
          l.TriesPackage p (packageIn (ofComponents way) (wanted specifier)) loc := by
      refine h.mono ?_
      rintro _ ⟨_, hreached, hloc⟩
      exact .package hbare hreached hloc
    rw [hbare.resolve?_eq, hbare.resolve?_eq, hpackage.resolvePackage?_same hinward hdirectory]
    cases hstyle : isStyleSheet importer with
    | false => simp only [Bool.false_eq_true, if_false]
    | true =>
      have hnear : SameAt p p' (l.Tries p
          (clean (join (l.directoryOf (some importer)) (wanted specifier)))) :=
        h.mono fun _ hloc => .near hbare hstyle hloc
      rw [hnear.probe?_same hinward (isAbsolute_join hdirectory (wanted specifier))]

/-- A lookup from a file goes through no more directories than the path has components. What it finds
is a file. A rooted or relative specifier means the first of the paths that are tried for its candidate,
and a bare one in a script what is found in the nearest directory in which anything is found. Files
that are not looked at make no difference. -/
theorem resolve?_nearest (hroot : isAbsolute l.root = true) (hinward : l.Inward) (p : Project)
    (himporter : isAbsolute importer = true) (specifier : String) :
    (l.searchDirectories (l.directoryOf (some importer))).length ≤
      (components (l.directoryOf (some importer))).length ∧
    (∀ file, l.resolve? p specifier (some importer) = some file → p.isFile file = true) ∧
    (∀ candidate, l.Names specifier importer candidate → ∀ file,
      l.resolve? p specifier (some importer) = some file ↔ IsFirst p (l.tried candidate) file) ∧
    (∀ names, Bare (wanted specifier) names → isStyleSheet importer = false → ∀ file,
      l.resolve? p specifier (some importer) = some file ↔
        ∃ way, l.Reached p (wanted specifier) (l.directoryOf (some importer)) way ∧
          l.Hit p (packageIn (ofComponents way) (wanted specifier)) file) ∧
    ∀ path, ¬l.LooksAt p specifier importer (p.locate path) →
      (∀ bytes, l.resolve? (p.insert path bytes) specifier (some importer) =
        l.resolve? p specifier (some importer)) ∧
      l.resolve? (p.remove path) specifier (some importer) =
        l.resolve? p specifier (some importer) := by
  have hdirectory := isAbsolute_directory hroot himporter
  refine ⟨?_, ?_, ?_, ?_, ?_⟩
  · exact length_searchDirectories_le hdirectory
  · intro file hfile
    exact (resolve?_spec hroot (fun _ hpath => Option.some.inj hpath ▸ himporter) hfile).1
  · intro candidate hnames file
    obtain ⟨path, hpath, rfl⟩ := hnames.exists_eq_clean hroot himporter
    rw [hnames.resolve?_eq, probe?_clean_eq_some_iff hinward hpath]
  · intro names hbare hscript file
    rw [hbare.resolve?_eq, hscript, if_neg Bool.false_ne_true, Option.none_or,
      resolvePackage?_eq_some_iff hinward hdirectory]
  · intro path hpath
    have hother : ∀ loc, l.LooksAt p specifier importer loc → loc ≠ p.locate path := by
      rintro loc hloc rfl
      exact hpath hloc
    constructor
    · intro bytes
      refine SameAt.resolve?_same hroot hinward himporter ⟨rfl, fun loc hloc => ?_⟩
      rw [Project.insert, FileTree.read?_put_file, if_neg (hother loc hloc)]
    · refine SameAt.resolve?_same hroot hinward himporter ⟨rfl, fun loc hloc => ?_⟩
      rw [Project.remove, FileTree.read?_erase, if_neg (hother loc hloc)]

/-- A package two directories up. -/
theorem resolve?_nearest_package :
    isAbsolute packageLookup.root = true ∧ packageLookup.Inward ∧
    isAbsolute "/app/src/a.js" = true ∧
    ∃ way, packageLookup.Reached (packageProject true) (wanted "pkg")
        (packageLookup.directoryOf (some "/app/src/a.js")) way ∧
      packageLookup.Hit (packageProject true) (packageIn (ofComponents way) (wanted "pkg"))
        "/app/node_modules/pkg/index.js" := by
  have hroot : isAbsolute packageLookup.root = true := by decide
  have hinward : packageLookup.Inward := by decide
  have himporter : isAbsolute "/app/src/a.js" = true := by decide
  obtain ⟨-, -, -, hbare, -⟩ :=
    resolve?_nearest hroot hinward (packageProject true) himporter "pkg"
  have hnames : Bare (wanted "pkg") ["pkg"] :=
    ⟨by decide, by decide, by decide, by decide⟩
  refine ⟨hroot, hinward, himporter, (hbare ["pkg"] hnames (by decide) _).1 ?_⟩
  decide +kernel

/-- An extension that leads out of the directory of an index file, and back into the one above. -/
def outwardLookup : Lookup := ⟨"/app", [".x/../../y"]⟩

def outwardProject : Project where
  base := "/app"
  files := { nodes := [(["app", "y"], .file "".toUTF8)] }

/-- With such an extension a file that is not looked at makes a difference, as there has to be
something at a candidate for index files to be tried. -/
theorem not_unchanged_outward :
    isAbsolute outwardLookup.root = true ∧ isAbsolute "/app/m.js" = true ∧
    ¬outwardLookup.LooksAt outwardProject "./a" "/app/m.js" (outwardProject.locate "/app/a/z") ∧
    outwardLookup.resolve? outwardProject "./a" (some "/app/m.js") = none ∧
    outwardLookup.resolve? (outwardProject.insert "/app/a/z" "".toUTF8) "./a" (some "/app/m.js") =
      some "/app/a/index.x/../../y" := by
  refine ⟨by decide, by decide, ?_, by decide, by decide +kernel⟩
  have hrelative : isRelative (wanted "./a") = true := by decide
  intro hlooks
  cases hlooks with
  | candidate hnames htries =>
    cases hnames with
    | rooted hrooted =>
      rw [rooted?_of_isRelative hrelative] at hrooted
      cases hrooted
    | relative =>
      have hnone : ∀ path ∈ outwardLookup.tried
          (clean (join (outwardLookup.directoryOf (some "/app/m.js")) (wanted "./a"))),
          outwardProject.locate path ≠ outwardProject.locate "/app/a/z" := by decide
      obtain ⟨path, hpath, heq⟩ := htries
      exact hnone path hpath heq
  | near hbare => exact absurd hrelative (by simp [hbare.unrelated])
  | package hbare => exact absurd hrelative (by simp [hbare.unrelated])

end Lookup

end Bindery
