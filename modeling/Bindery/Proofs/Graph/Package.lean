import Mathlib.Data.List.Infix
import Mathlib.Data.List.Induction
import Bindery.Proofs.FileTree
import Bindery.Proofs.Graph.Description
import Bindery.Proofs.Graph.Naming

/-!
# Where a package leads

A bare specifier is looked up in one directory after the other, from the importer's up to the root.
The nearest directory in which the package is installed decides. There an index file is looked for
before the description of the package is read: the file that the description names is found only
where no index file is in its way.

* `Lookup.resolvePackage?_concat` : one step of the way up.
* `Lookup.PackageImport` : a file imports a package, and this is where it is installed.
* `Lookup.PackageManifest` : the description of a package.
* `PackageImport.resolve?_eq` : an index file, or else the main file, or else what is further up.
* `PackageImport.resolve?_eq_named_iff` : when the import leads to the file that is named.
* `Lookup.not_named_indexed` : a package whose index file is in the way.
-/

namespace Bindery

theorem Path.Component.text_ofSegment (segment : String) : (ofSegment segment).text = segment := by
  unfold ofSegment
  split
  · next h => exact h.symm
  · rfl

namespace Project

variable {p : Project} {loc : Location}

theorem isFile_toPath (h : loc.Plain) : p.isFile loc.toPath = p.files.isFile loc := by
  rw [isFile, locate, Location.ofPath_toPath h]

theorem has_toPath (h : loc.Plain) : p.has loc.toPath = p.files.has loc := by
  rw [has, locate, Location.ofPath_toPath h]

end Project

namespace Lookup

open Path Location

variable {l : Lookup} {p : Project} {specifier candidate directory : String}
  {root dir names place : Location}

/-! ## Bare specifiers -/

/-- A specifier that is a sequence of names: neither absolute nor relative, and nowhere up. -/
structure Bare (wanted : String) (names : Location) : Prop where
  nonempty : wanted ≠ ""
  segments : Path.segments wanted = names
  unrooted : isAbsolute wanted = false
  unrelated : isRelative wanted = false

theorem rooted?_of_unrooted {wanted : String} (h : isAbsolute wanted = false) :
    rooted? wanted = none := by
  unfold rooted?
  split
  · next r hr => exact absurd (isAbsolute_iff.2 ⟨r, hr⟩) (by simp [h])
  · rfl

/-- What is relative begins with a point, or leads up. -/
theorem starts_of_isRelative {wanted : String} (h : isRelative wanted = true) :
    startsHere wanted = true ∨ ".." ∈ segments wanted := by
  simp only [isRelative, Bool.or_eq_true, decide_eq_true_eq, List.isPrefixOf_iff_prefix] at h
  rcases h with ((rfl | rfl) | ⟨r, hr⟩) | ⟨r, hr⟩
  · exact .inl rfl
  · exact .inr (by decide)
  · left
    rw [startsHere, ← hr]
    rfl
  · right
    have hwanted : wanted = ".." ++ "/" ++ String.ofList r := String.toList_inj.1 (by simp [← hr])
    rw [hwanted, segments_append_slash]
    exact List.mem_append_left _ (by decide)

theorem bare_of_components {wanted : String} (h : components wanted = names.map .name)
    (hne : names ≠ []) : Bare wanted names := by
  have hmem : ∀ c ∈ components wanted, ∃ name, c = .name name := by
    intro c hc
    rw [h] at hc
    obtain ⟨name, -, hname⟩ := List.mem_map.1 hc
    exact ⟨name, hname.symm⟩
  have habsolute : isAbsolute wanted = false := by
    rw [← Bool.not_eq_true]
    intro habsolute
    rw [components_of_isAbsolute habsolute] at hmem
    obtain ⟨name, hname⟩ := hmem .root List.mem_cons_self
    cases hname
  have hhere : startsHere wanted = false := by
    rw [← Bool.not_eq_true]
    intro hhere
    rw [components, if_neg (by simp [habsolute]), if_pos hhere] at hmem
    obtain ⟨name, hname⟩ := hmem .here List.mem_cons_self
    cases hname
  have hcomponents : components wanted = (Path.segments wanted).map .ofSegment := by
    simp [components, habsolute, hhere]
  have hup : ".." ∉ Path.segments wanted := by
    intro hup
    rw [hcomponents] at hmem
    obtain ⟨name, hname⟩ := hmem _ (List.mem_map_of_mem hup)
    cases hname
  refine ⟨?_, ?_, habsolute, ?_⟩
  · rintro rfl
    exact hne (List.map_eq_nil_iff.1 h.symm)
  · -- the text of a component is the segment that it came from
    have hsame := congrArg (List.map Component.text) (hcomponents.symm.trans h)
    have hnames : Component.text ∘ Component.name = id := rfl
    have hsegments : Component.text ∘ Component.ofSegment = id := funext Component.text_ofSegment
    rwa [List.map_map, List.map_map, hsegments, hnames, List.map_id, List.map_id] at hsame
  · rw [← Bool.not_eq_true]
    intro hrelative
    rcases starts_of_isRelative hrelative with hstart | hstart
    · rw [hhere] at hstart
      cases hstart
    · exact hup hstart

/-- Where a package is that is installed in a directory. -/
def packageAt (dir names : Location) : Location := dir ++ "node_modules" :: names

theorem isName_nodeModules : IsName "node_modules" := by
  refine ⟨by decide, by decide, by decide, by decide⟩

theorem packageIn_toPath {wanted : String} (hdir : dir.Plain) (hbare : Bare wanted names)
    (hnames : names.Plain) : packageIn dir.toPath wanted = (packageAt dir names).toPath := by
  have habsolute := isAbsolute_join (isAbsolute_toPath dir) "node_modules"
  have hcomponents : components (join (join dir.toPath "node_modules") wanted) =
      .root :: (packageAt dir names).map .name := by
    rw [components_join habsolute hbare.unrooted,
      components_join (isAbsolute_toPath dir) (isAbsolute_of_isName isName_nodeModules),
      segments_of_isName isName_nodeModules, hbare.segments, components_toPath hdir,
      map_ofSegment hnames, map_ofSegment (by simpa using isName_nodeModules)]
    simp [packageAt]
  rw [packageIn, clean_eq_toPath (isAbsolute_join habsolute wanted) "/",
    ofPath_of_components hcomponents]

/-! ## The way up -/

/-- The file that a package specifier means in one of the directories in which it is looked for. -/
def foundIn? (l : Lookup) (p : Project) (wanted directory : String) : Option String :=
  (l.probe? p (packageIn directory wanted)).or (l.packageMain? p (packageIn directory wanted))

theorem resolvePackage?_eq : l.resolvePackage? p specifier directory =
    (l.searchDirectories directory).findSome? (l.foundIn? p specifier) := rfl

theorem searchDirectories_root (hroot : components l.root = .root :: root.map .name) :
    l.searchDirectories root.toPath = [root.toPath] := by
  have hplain := plain_of_components hroot
  rw [searchDirectories, components_toPath hplain, hroot]
  cases hreversed : (Component.root :: root.map .name).reverse with
  | nil => simp at hreversed
  | cons c r =>
    have hback : (c :: r).reverse = .root :: root.map .name := by
      rw [← hreversed, List.reverse_reverse]
    rw [upward, hback, if_pos (by simp), List.map_singleton, ofComponents_root]

theorem searchDirectories_concat {name : String}
    (hroot : components l.root = .root :: root.map .name) (hdir : root <+: dir)
    (hplain : (dir ++ [name]).Plain) :
    l.searchDirectories (dir ++ [name]).toPath =
      (dir ++ [name]).toPath :: l.searchDirectories dir.toPath := by
  have hreversed : (Component.root :: (dir ++ [name]).map .name).reverse =
      .name name :: (Component.root :: dir.map .name).reverse := by simp
  have hback : (Component.name name :: (Component.root :: dir.map .name).reverse).reverse =
      .root :: (dir ++ [name]).map .name := by simp
  have hgoOn : ¬(decide (Component.root :: (dir ++ [name]).map .name = .root :: root.map .name) ||
      decide (Component.name name = .root)) = true := by
    simp only [Bool.or_eq_true, decide_eq_true_eq, not_or]
    refine ⟨?_, by simp⟩
    intro heq
    have hlength := congrArg List.length heq
    have hle := hdir.length_le
    simp only [List.length_cons, List.length_map, List.length_append, List.length_nil] at hlength
    omega
  rw [searchDirectories, components_toPath hplain, hroot, hreversed, upward, hback, if_neg hgoOn,
    List.map_cons, ofComponents_root, searchDirectories,
    components_toPath (hplain.of_isPrefix (List.prefix_append dir [name])), hroot]

/-- From a directory inside of the root the lookup goes on to the directory above. -/
theorem resolvePackage?_concat {name : String}
    (hroot : components l.root = .root :: root.map .name) (hdir : root <+: dir)
    (hplain : (dir ++ [name]).Plain) :
    l.resolvePackage? p specifier (dir ++ [name]).toPath =
      (l.foundIn? p specifier (dir ++ [name]).toPath).or
        (l.resolvePackage? p specifier dir.toPath) := by
  rw [resolvePackage?_eq, searchDirectories_concat hroot hdir hplain, List.findSome?_cons,
    resolvePackage?_eq]
  cases l.foundIn? p specifier (dir ++ [name]).toPath <;> rfl

theorem resolvePackage?_root (hroot : components l.root = .root :: root.map .name) :
    l.resolvePackage? p specifier root.toPath = l.foundIn? p specifier root.toPath := by
  rw [resolvePackage?_eq, searchDirectories_root hroot, List.findSome?_singleton]

/-- Directories in which nothing is found are passed by. -/
theorem resolvePackage?_append {below : Location}
    (hroot : components l.root = .root :: root.map .name) (hdir : root <+: dir)
    (hplain : (dir ++ below).Plain)
    (hnone : ∀ b, b <+: below → b ≠ [] → l.foundIn? p specifier (dir ++ b).toPath = none) :
    l.resolvePackage? p specifier (dir ++ below).toPath =
      l.resolvePackage? p specifier dir.toPath := by
  -- the way up takes the last name off first
  induction below using List.reverseRecOn with
  | nil => rw [List.append_nil]
  | append_singleton below name ih =>
    rw [← List.append_assoc] at hplain ⊢
    have hlast := hnone (below ++ [name]) (List.prefix_refl _) (by simp)
    rw [← List.append_assoc] at hlast
    rw [resolvePackage?_concat hroot (hdir.trans (List.prefix_append dir below)) hplain, hlast,
      Option.none_or]
    refine ih (hplain.of_isPrefix (List.prefix_append _ [name])) ?_
    intro b hb
    exact hnone b (hb.trans (List.prefix_append below [name]))

/-- What is found in the directories above the given one. -/
def foundAbove? (l : Lookup) (p : Project) (wanted directory : String) : Option String :=
  (l.searchDirectories directory).tail.findSome? (l.foundIn? p wanted)

/-- The first directory in which something is found decides. -/
theorem resolvePackage?_eq_or (hroot : components l.root = .root :: root.map .name)
    (hdir : root <+: dir) (hplain : dir.Plain) :
    l.resolvePackage? p specifier dir.toPath =
      (l.foundIn? p specifier dir.toPath).or (l.foundAbove? p specifier dir.toPath) := by
  obtain ⟨above, rfl⟩ := hdir
  induction above using List.reverseRecOn with
  | nil =>
    rw [List.append_nil, resolvePackage?_root hroot, foundAbove?, searchDirectories_root hroot,
      List.tail_cons, List.findSome?_nil, Option.or_none]
  | append_singleton above name _ =>
    rw [← List.append_assoc] at hplain ⊢
    rw [resolvePackage?_concat hroot (List.prefix_append root above) hplain, foundAbove?,
      searchDirectories_concat hroot (List.prefix_append root above) hplain, List.tail_cons]
    rfl

/-! ## One directory -/

/-- Neither the candidate nor the candidate with an extension behind it is a file. -/
def NoFile (l : Lookup) (p : Project) (candidate : String) : Prop :=
  ∀ e ∈ "" :: l.extensions, p.isFile (candidate ++ e) = false

/-- The first index file in a directory. -/
def indexFile? (l : Lookup) (p : Project) (directory : String) : Option String :=
  (l.extensions.map fun e => join directory ("index" ++ e)).find? p.isFile

theorem probe?_of_noFile (h : l.NoFile p candidate) : l.probe? p candidate =
    if p.has candidate then l.indexFile? p candidate else none := by
  have hnone : (candidate :: l.extensions.map (candidate ++ ·)).find? p.isFile = none := by
    rw [List.find?_eq_none]
    intro path hpath
    rcases List.mem_cons.1 hpath with rfl | hpath
    · simpa using h "" List.mem_cons_self
    · obtain ⟨e, he, rfl⟩ := List.mem_map.1 hpath
      simp [h e (List.mem_cons_of_mem "" he)]
  rw [probe?, candidates, List.find?_append, hnone, Option.none_or]
  split
  · rfl
  · rfl

/-- A candidate that is a file is what is found. -/
theorem probe?_of_isFile (h : p.isFile candidate = true) : l.probe? p candidate = some candidate := by
  rw [probe?, candidates, List.cons_append, List.find?_cons_of_pos h]

theorem locate_join (hplace : place.Plain) {name : String} (hname : IsName name) :
    p.locate (join place.toPath name) = place ++ [name] := by
  have hcomponents : components (join place.toPath name) = .root :: (place ++ [name]).map .name := by
    rw [components_join (isAbsolute_toPath place) (isAbsolute_of_isName hname),
      segments_of_isName hname, components_toPath hplace, map_ofSegment (by simpa using hname)]
    simp
  exact ofPath_of_components hcomponents p.base

theorem isName_packageJson : IsName "package.json" :=
  ⟨by decide, by decide, by decide, by decide⟩

theorem read?_description (hplace : place.Plain) :
    p.read? (join place.toPath "package.json") = p.files.read? (place ++ ["package.json"]) := by
  rw [Project.read?, locate_join hplace isName_packageJson]

theorem plain_packageAt (hdir : dir.Plain) (hnames : names.Plain) : (packageAt dir names).Plain := by
  intro name hname
  rcases List.mem_append.1 hname with hname | hname
  · exact hdir name hname
  · rcases List.mem_cons.1 hname with rfl | hname
    · exact isName_nodeModules
    · exact hnames name hname

theorem read?_below_eq_none {name : String} (hdir : p.files.isDir place = false)
    (hfile : p.files.isFile place = false) : p.files.read? (place ++ [name]) = none := by
  rw [Option.eq_none_iff_forall_ne_some]
  intro bytes hbytes
  have hread : p.files.read? place = none := by simpa [FileTree.isFile] using hfile
  have hbelow : place.Above (place ++ [name]) :=
    above_append_singleton.2 (List.prefix_refl place)
  have hisDir : p.files.isDir place = true :=
    FileTree.isDir_iff.2 ⟨hread, .inr ⟨_, _, FileTree.read?_eq_some_iff.1 hbytes, hbelow⟩⟩
  rw [hdir] at hisDir
  cases hisDir

/-- Where the package is neither a directory nor, with or without an extension, a file, nothing is
found. -/
theorem foundIn?_of_absent {wanted : String} (hdir : dir.Plain) (hbare : Bare wanted names)
    (hnames : names.Plain) (habsent : p.files.isDir (packageAt dir names) = false)
    (hfree : l.NoFile p (packageAt dir names).toPath) : l.foundIn? p wanted dir.toPath = none := by
  have hplain := plain_packageAt hdir hnames
  have hfile : p.files.isFile (packageAt dir names) = false := by
    rw [← Project.isFile_toPath hplain]
    simpa using hfree "" List.mem_cons_self
  have hhas : p.has (packageAt dir names).toPath = false := by
    simp [Project.has_toPath hplain, FileTree.has, hfile, habsent]
  have hmain : l.packageMain? p (packageAt dir names).toPath = none := by
    simp [packageMain?, read?_description hplain, read?_below_eq_none habsent hfile]
  rw [foundIn?, packageIn_toPath hdir hbare hnames, probe?_of_noFile hfree, hhas, hmain]
  rfl

/-! ## The description of a package -/

/-- The description of a package is an object. -/
structure PackageManifest (p : Project) (package : Location) where
  bytes : ByteArray
  text : String
  members : List (String × Json)
  read : p.files.read? (package ++ ["package.json"]) = some bytes
  decoded : Text.Utf8.decode? bytes = some text
  parsed : Json.parse? text = some (.obj members)

namespace PackageManifest

variable {package : Location}

/-- Its `module` field, or without one its `main` field, is this text. -/
def Names (m : PackageManifest p package) (named : String) : Prop :=
  m.members.lookup "module" = some (.str named) ∨
    (m.members.lookup "module").getD .null = .null ∧
      m.members.lookup "main" = some (.str named)

/-- Both fields have the form that they are read in. -/
def Readable (m : PackageManifest p package) : Prop := ∃ fields : Fields, fields.Of m.members

/-- The file that is named is read off a readable description. -/
theorem mainField?_of_readable (m : PackageManifest p package) {named : String}
    (h : m.Names named) (hreadable : m.Readable) : mainField? m.bytes = some named := by
  obtain ⟨fields, hfields⟩ := hreadable
  refine (mainField?_eq_some_iff m.decoded m.parsed).2 ⟨fields, hfields, ?_⟩
  rw [hfields.module.eq_lookup, hfields.main.eq_lookup]
  rcases h with h | ⟨hnone, h⟩
  · rw [h]
    rfl
  · rw [h]
    cases hmodule : m.members.lookup "module" with
    | none => rfl
    | some v =>
      obtain rfl : v = .null := by simpa [hmodule] using hnone
      rfl

/-- Nothing is read off another one, even if the field in question has its form. -/
theorem mainField?_of_unreadable (m : PackageManifest p package) (h : ¬m.Readable) :
    mainField? m.bytes = none := by
  rw [Option.eq_none_iff_forall_ne_some]
  intro named hnamed
  obtain ⟨fields, hfields, -⟩ := (mainField?_eq_some_iff m.decoded m.parsed).1 hnamed
  exact h ⟨fields, hfields⟩

theorem packageMain?_eq (m : PackageManifest p package) (hplain : package.Plain) :
    l.packageMain? p package.toPath =
      (mainField? m.bytes).bind fun named => l.probe? p (clean (join package.toPath named)) := by
  simp [packageMain?, read?_description hplain, m.read]

end PackageManifest

/-! ## Importing a package -/

/-- A file inside of the root, no style sheet, imports a package by a bare specifier. Of the
directories from the importer's up to the root, the nearest one in which the package is installed is
`above` behind the root, and `below` leads from there to the importer. -/
structure PackageImport (l : Lookup) (p : Project) (importer specifier : String) where
  root : Location
  above : Location
  below : Location
  script : String
  names : Location
  root_eq : components l.root = .root :: root.map .name
  importer_eq : components importer = .root :: (root ++ above ++ below ++ [script]).map .name
  not_style : isStyleSheet importer = false
  specifier_eq : components (wanted specifier) = names.map .name
  names_ne : names ≠ []
  installed : p.files.isDir (packageAt (root ++ above) names) = true
  nearest : ∀ b, b <+: below → b ≠ [] →
    p.files.isDir (packageAt (root ++ above ++ b) names) = false
  no_file : ∀ b, b <+: below → l.NoFile p (packageAt (root ++ above ++ b) names).toPath

namespace PackageImport

variable {importer : String}

/-- The directory of the package. -/
def package (i : PackageImport l p importer specifier) : Location :=
  packageAt (i.root ++ i.above) i.names

theorem plain (i : PackageImport l p importer specifier) :
    (i.root ++ i.above ++ i.below).Plain :=
  (plain_of_components i.importer_eq).of_isPrefix (List.prefix_append _ [i.script])

theorem plain_dir (i : PackageImport l p importer specifier) : (i.root ++ i.above).Plain :=
  i.plain.of_isPrefix (List.prefix_append _ i.below)

theorem plain_names (i : PackageImport l p importer specifier) : i.names.Plain := by
  intro name hname
  have hmem : .name name ∈ components (wanted specifier) := by
    rw [i.specifier_eq]
    exact List.mem_map_of_mem hname
  exact isName_of_mem_components hmem

theorem plain_package (i : PackageImport l p importer specifier) : i.package.Plain :=
  plain_packageAt i.plain_dir i.plain_names

theorem bare (i : PackageImport l p importer specifier) : Bare (wanted specifier) i.names :=
  bare_of_components i.specifier_eq i.names_ne

/-- The lookup is one of a package, from the directory of the importer. -/
theorem resolve?_eq_resolvePackage? (i : PackageImport l p importer specifier) :
    l.resolve? p specifier (some importer) =
      l.resolvePackage? p (wanted specifier) (i.root ++ i.above ++ i.below).toPath := by
  have hparent : parent? importer = some (i.root ++ i.above ++ i.below).toPath := by
    unfold parent?
    rw [i.importer_eq, List.map_append, List.map_singleton, ← List.cons_append,
      List.getLast?_concat, List.dropLast_concat]
    exact congrArg some (ofComponents_root _)
  simp [resolve?, i.bare.nonempty, rooted?_of_unrooted i.bare.unrooted, i.bare.unrelated,
    i.not_style, directoryOf, hparent]

/-- What is found where the package is installed. -/
theorem foundIn?_eq (i : PackageImport l p importer specifier) :
    l.foundIn? p (wanted specifier) (i.root ++ i.above).toPath =
      (l.indexFile? p i.package.toPath).or (l.packageMain? p i.package.toPath) := by
  have hfree : l.NoFile p i.package.toPath := by
    have := i.no_file [] List.nil_prefix
    rwa [List.append_nil] at this
  have hinstalled : p.files.isDir i.package = true := i.installed
  have hhas : p.has i.package.toPath = true := by
    simp [Project.has_toPath i.plain_package, FileTree.has, hinstalled]
  rw [foundIn?, packageIn_toPath i.plain_dir i.bare i.plain_names]
  change (l.probe? p i.package.toPath).or (l.packageMain? p i.package.toPath) = _
  rw [probe?_of_noFile hfree, if_pos hhas]

/-- What is found in the directories above the one in which the package is installed. -/
def furtherUp? (i : PackageImport l p importer specifier) : Option String :=
  l.foundAbove? p (wanted specifier) (i.root ++ i.above).toPath

/-- A package import means an index file of the package, or else the main file of its description,
or else what is found further up. -/
theorem resolve?_eq (i : PackageImport l p importer specifier) :
    l.resolve? p specifier (some importer) =
      ((l.indexFile? p i.package.toPath).or (l.packageMain? p i.package.toPath)).or i.furtherUp? := by
  have hroot : i.root <+: i.root ++ i.above := List.prefix_append _ _
  have hnone : ∀ b, b <+: i.below → b ≠ [] →
      l.foundIn? p (wanted specifier) (i.root ++ i.above ++ b).toPath = none := by
    intro b hb hne
    have hplain := i.plain.of_isPrefix ((List.prefix_append_right_inj (i.root ++ i.above)).2 hb)
    exact foundIn?_of_absent hplain i.bare i.plain_names (i.nearest b hb hne) (i.no_file b hb)
  rw [i.resolve?_eq_resolvePackage?, resolvePackage?_append i.root_eq hroot i.plain hnone,
    resolvePackage?_eq_or i.root_eq hroot i.plain_dir, i.foundIn?_eq, furtherUp?]

/-- A file that a readable description names is the main file of the package. -/
theorem packageMain?_of_readable {named : String} {file : Location}
    (i : PackageImport l p importer specifier) (m : PackageManifest p i.package)
    (hnamed : m.Names named) (hmeant : ofPath i.package.toPath named = file)
    (hfile : p.files.isFile file = true) (hreadable : m.Readable) :
    l.packageMain? p i.package.toPath = some file.toPath := by
  have hplain : file.Plain := hmeant ▸ plain_ofPath i.package.toPath named
  have hclean : clean (join i.package.toPath named) = file.toPath := by
    rw [clean_eq_toPath (isAbsolute_join (isAbsolute_toPath i.package) named) i.package.toPath,
      ofPath_join (isAbsolute_toPath i.package), hmeant]
  rw [m.packageMain?_eq i.plain_package, m.mainField?_of_readable hnamed hreadable,
    Option.bind_some, hclean]
  exact probe?_of_isFile ((Project.isFile_toPath hplain).trans hfile)

/-- The import means the file that the description of the package names exactly if no other index
file stands in the directory of the package and the description is readable. Where it is not, nothing
short of the same file further up makes up for it. -/
theorem resolve?_eq_named_iff {named : String} {file : Location}
    (i : PackageImport l p importer specifier) (m : PackageManifest p i.package)
    (hnamed : m.Names named) (hmeant : ofPath i.package.toPath named = file)
    (hfile : p.files.isFile file = true) :
    l.resolve? p specifier (some importer) = some file.toPath ↔
      (∀ index ∈ l.indexFile? p i.package.toPath, index = file.toPath) ∧
        (l.indexFile? p i.package.toPath = none → m.Readable ∨ i.furtherUp? = some file.toPath) := by
  rw [i.resolve?_eq]
  -- an index file ends the lookup, so the description matters only where there is none
  cases l.indexFile? p i.package.toPath with
  | some index => simp
  | none =>
    by_cases hreadable : m.Readable
    · simp [i.packageMain?_of_readable m hnamed hmeant hfile hreadable, hreadable]
    · have hnone : l.packageMain? p i.package.toPath = none := by
        rw [m.packageMain?_eq i.plain_package, m.mainField?_of_unreadable hreadable]
        rfl
      simp [hnone, hreadable]

end PackageImport

/-! ### A package with and without an index file -/

/-- A project with one package, whose description names a file in it. -/
def packageProject (withIndex : Bool) : Project where
  base := "/app"
  files :=
    { nodes := [
        (["app", "src", "a.js"], .file "".toUTF8),
        (["app", "node_modules", "pkg", "package.json"],
          .file "\x7b\"module\":\"x.js\"\x7d".toUTF8),
        (["app", "node_modules", "pkg", "x.js"], .file "".toUTF8)]
        ++ if withIndex then
            [(["app", "node_modules", "pkg", "index.js"], .file "".toUTF8)]
          else [] }

def packageLookup : Lookup := ⟨"/app", [".ts", ".js"]⟩

def pkgImport (withIndex : Bool) : PackageImport packageLookup (packageProject withIndex)
    "/app/src/a.js" "pkg" where
  root := ["app"]
  above := []
  below := ["src"]
  script := "a.js"
  names := ["pkg"]
  root_eq := by decide
  importer_eq := by decide
  not_style := by decide
  specifier_eq := by decide
  names_ne := by simp
  installed := by cases withIndex <;> decide +kernel
  nearest := by
    simp only [← List.mem_inits]
    cases withIndex <;> decide +kernel
  no_file := by
    simp only [← List.mem_inits, NoFile]
    cases withIndex <;> decide +kernel

def pkgManifest (withIndex : Bool) :
    PackageManifest (packageProject withIndex) (pkgImport withIndex).package where
  bytes := "\x7b\"module\":\"x.js\"\x7d".toUTF8
  text := "\x7b\"module\":\"x.js\"\x7d"
  members := [("module", .str "x.js")]
  read := by cases withIndex <;> rfl
  decoded := by decide +kernel
  parsed := by cbv

theorem names_pkgManifest (withIndex : Bool) : (pkgManifest withIndex).Names "x.js" := .inl rfl

/-- Without an index file the import means the file that is named. -/
theorem named_unindexed :
    (packageProject false).files.isFile ["app", "node_modules", "pkg", "x.js"] = true ∧
    packageLookup.resolve? (packageProject false) "pkg" (some "/app/src/a.js") =
      some "/app/node_modules/pkg/x.js" := by
  have hfile : (packageProject false).files.isFile
      ["app", "node_modules", "pkg", "x.js"] = true := by decide
  have hreadable : (pkgManifest false).Readable :=
    ⟨⟨some (some "x.js"), none⟩, .given rfl rfl, .missing rfl⟩
  have hiff := (pkgImport false).resolve?_eq_named_iff (pkgManifest false)
    (names_pkgManifest false) (by decide) hfile
  exact ⟨hfile, hiff.2 ⟨by decide, fun _ => .inl hreadable⟩⟩

/-- With one it means the index file. -/
theorem not_named_indexed : (pkgManifest true).Names "x.js" ∧
    (packageProject true).files.isFile ["app", "node_modules", "pkg", "x.js"] = true ∧
    packageLookup.resolve? (packageProject true) "pkg" (some "/app/src/a.js") =
      some "/app/node_modules/pkg/index.js" := by
  have hindex : packageLookup.indexFile? (packageProject true) (pkgImport true).package.toPath =
      some "/app/node_modules/pkg/index.js" := by decide +kernel
  refine ⟨names_pkgManifest true, by decide +kernel, ?_⟩
  rw [(pkgImport true).resolve?_eq, hindex]
  rfl

end Lookup

end Bindery
