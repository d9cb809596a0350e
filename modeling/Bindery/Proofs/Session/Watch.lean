import Bindery.Proofs.Relative
import Bindery.Session.Basic
import Bindery.Session.Watch

/-!
# What a session writes and what it sees

A session must not see what it writes itself, or every build would start another one. It leaves out
what lies below the configured text of its output directory, while the files go where that text
leads once it is cleaned. The two agree unless the text goes up again behind the root, begins with a
star, which makes it an ending, or is the root itself.

* `Watch.Written` : the files that a build and a failed build write, and what is written beside them.
* `Watch.Tells` : the texts by which a change of a file can be told.
* `Watch.ignores_written_iff` : none of the files is seen, however it is told, exactly when the
  output directory is hidden, lies among the packages, or is configured straight.
-/

namespace Bindery

namespace Watch

open Path Location

variable {b : Bundler} {base path text : String} {below loc : Location}

/-! ## Places -/

/-- What is written below the output directory: a file of a build or the page of a failed one, at
its place or beside it. -/
def Written (b : Bundler) (base path : String) : Prop :=
  ∃ target,
    ((∃ file, Output.target? (Output.absolute base b.profile.outputDirectory) file = .ok target) ∨
      (Session.ofBundler b true).pagePath = some target) ∧
    (path = target ∨ path = Output.tempPath target)

/-- A text by which a change of a location can be told: it leads there, and never up again behind
the root. -/
structure Tells (root : String) (loc : Location) (path : String) : Prop where
  leads : ofPath root path = loc
  forward : ∀ rest, stripComponents? (components root) (components path) = some rest → .up ∉ rest

/-- A text for an output directory whose rule covers all that is written there. -/
def Straight (text : String) : Prop :=
  text = "*" ∨ text ≠ "" ∧ text.toList.head? ≠ some '*' ∧ .up ∉ components text

instance (text : String) : Decidable (Straight text) :=
  inferInstanceAs
    (Decidable (text = "*" ∨ text ≠ "" ∧ text.toList.head? ≠ some '*' ∧ .up ∉ components text))

theorem isAbsolute_outputDirectory (hroot : isAbsolute b.profile.root = true) :
    isAbsolute b.profile.outputDirectory = true :=
  isAbsolute_join hroot b.profile.output.path

/-- An absolute output directory does not depend on where a process works. -/
theorem absolute_outputDirectory (hroot : isAbsolute b.profile.root = true) (base : String) :
    Output.absolute base b.profile.outputDirectory =
      toPath (ofPath b.profile.root b.profile.outputDirectory) := by
  rw [Output.absolute, clean_eq_toPath (isAbsolute_outputDirectory hroot) b.profile.root,
    if_pos (isAbsolute_toPath _)]

theorem join_append {base path ending : String} (hpath : isAbsolute path = false)
    (hmore : isAbsolute (path ++ ending) = false) :
    join base path ++ ending = join base (path ++ ending) := by
  simp only [join, hpath, hmore, Bool.false_eq_true, if_false]
  split
  · rfl
  · split
    · exact String.append_assoc
    · simp only [String.append_assoc]

/-- All that is written lies below the output directory. -/
theorem above_of_written (hroot : isAbsolute b.profile.root = true) (h : Written b base path) :
    isAbsolute path = true ∧
      (ofPath b.profile.root b.profile.outputDirectory).Above (ofPath b.profile.root path) := by
  have hdirectory := isAbsolute_outputDirectory hroot
  have hplain := plain_ofPath b.profile.root b.profile.outputDirectory
  obtain ⟨target, hfile | hpage, hpath⟩ := h
  · obtain ⟨file, hfile⟩ := hfile
    rw [absolute_outputDirectory hroot] at hfile
    obtain ⟨loc, hloc, habove, rfl⟩ := Output.target?_spec hplain hfile
    rcases hpath with rfl | rfl
    · exact ⟨isAbsolute_toPath loc, by rwa [ofPath_toPath hloc]⟩
    · have hne : loc ≠ [] := by
        rintro rfl
        exact habove.2 (List.prefix_nil.1 habove.1)
      rw [Output.tempPath_toPath hne, ofPath_toPath (Output.plain_beside hloc hne)]
      exact ⟨isAbsolute_toPath _, (Output.above_beside_iff hne).2 habove⟩
  · -- the path of the page is not cleaned: its name stands behind the configured text
    have hnames : ∀ name, IsName name → isAbsolute (join b.profile.outputDirectory name) = true ∧
        (ofPath b.profile.root b.profile.outputDirectory).Above
          (ofPath b.profile.root (join b.profile.outputDirectory name)) := by
      intro name hname
      have hone : Plain [name] := by
        intro other hother
        rwa [List.mem_singleton.1 hother]
      refine ⟨isAbsolute_join hdirectory name, ?_⟩
      have hjoin := ofPath_join_slashed hdirectory hone (List.cons_ne_nil name []) b.profile.root
      rw [show slashed [name] = name from rfl] at hjoin
      rw [hjoin]
      exact above_append_singleton.2 List.prefix_rfl
    obtain rfl : join b.profile.outputDirectory Session.pageName = target :=
      Option.some.inj hpage
    have hname : IsName Session.pageName := by
      refine ⟨?_, ?_, ?_, ?_⟩ <;> decide
    have hbeside : IsName (Session.pageName ++ ".sheaf-tmp") := by
      refine ⟨?_, ?_, ?_, ?_⟩ <;> decide
    have htemp : Output.tempPath (join b.profile.outputDirectory Session.pageName) =
        join b.profile.outputDirectory (Session.pageName ++ ".sheaf-tmp") := by
      rw [Output.tempPath, join_append (isAbsolute_of_isName hname) (isAbsolute_of_isName hbeside)]
    rcases hpath with rfl | rfl
    · exact hnames _ hname
    · rw [htemp]
      exact hnames _ hbeside

/-! ## Rules -/

/-- The rules of a session in development. -/
theorem mem_ignorePatterns_iff {p : Profile} (hdev : p.isDevelopment = true) :
    text ∈ ignorePatterns p ↔ text = "node_modules" ∨ text = "*.map" ∨
      relativeText? p.root p.outputDirectory = some text ∧ text ≠ "" := by
  have hmanifest : p.manifestPath? = none := by
    unfold Profile.manifestPath?
    unfold Profile.isDevelopment Profile.mode at hdev
    split
    · rfl
    · next settings hsettings =>
      rw [hsettings] at hdev
      cases hdev
  simp only [ignorePatterns, hmanifest, Option.map_none, Option.toList_none, List.append_nil,
    List.mem_append, List.mem_cons, List.not_mem_nil, or_false, List.mem_filter,
    List.mem_filterMap, exists_eq_left, bne_iff_ne, or_assoc]

/-- What a rule that is a path covers. -/
theorem covers_below_iff {relative : String} {c : Char} {r : List Char}
    (htext : text.toList = c :: r) (hstar : c ≠ '*') :
    (IgnoreRule.ofText text).covers relative = true ↔ components text <+: components relative := by
  have hrule : IgnoreRule.ofText text = .below text := by
    unfold IgnoreRule.ofText
    split
    · next heq => exact absurd (List.cons.inj (htext.symm.trans heq)).1 hstar
    · rfl
  rw [hrule]
  exact Output.isSome_stripComponents?_iff

/-- What a rule that is an ending covers. -/
theorem covers_ending_iff {relative : String} {r : List Char} (htext : text.toList = '*' :: r) :
    (IgnoreRule.ofText text).covers relative = true ↔ r <:+ relative.toList := by
  have hrule : IgnoreRule.ofText text = .ending (String.ofList r) := by
    simp [IgnoreRule.ofText, htext]
  rw [hrule, IgnoreRule.covers, List.isSuffixOf_iff_suffix, String.toList_ofList]

/-! ## What is not seen -/

/-- Below a hidden directory, among the packages or in a directory that is configured straight,
nothing is seen, however it is told. -/
theorem ignores_of_above (hdev : b.profile.isDevelopment = true)
    (hroot : isAbsolute b.profile.root = true)
    (hinside : ofPath b.profile.root b.profile.outputDirectory =
      ofPath b.profile.root b.profile.root ++ below)
    (hquiet : (∃ name ∈ below, isHidden (.name name) = true) ∨
      below.head? = some "node_modules" ∨
      ∃ text, relativeText? b.profile.root b.profile.outputDirectory = some text ∧ Straight text)
    (habove : (ofPath b.profile.root b.profile.outputDirectory).Above loc)
    (htells : Tells b.profile.root loc path) :
    ignores b.profile.root (ignorePatterns b.profile) path = true := by
  unfold ignores
  split
  · rfl
  · next relative hrelative =>
    -- the names behind the root are those of the output directory and some more
    have hpath := components_relativeText? hroot hrelative
    obtain ⟨names, hnames, hleads⟩ := exists_names_of_components hroot hpath
      (htells.forward _ (stripComponents?_eq_some_iff.2 hpath)) b.profile.root
    obtain ⟨more, rfl⟩ : below <+: names := by
      rw [htells.leads] at hleads
      have hway := habove.1
      rw [hleads, hinside] at hway
      exact (List.prefix_append_right_inj _).1 hway
    rw [Bool.or_eq_true, List.any_eq_true, List.any_eq_true]
    rcases hquiet with ⟨name, hname, hhidden⟩ | hpackages | ⟨text, htext, hstraight⟩
    · refine .inr ⟨.name name, ?_, hhidden⟩
      rw [hnames]
      exact List.mem_map_of_mem (List.mem_append_left more hname)
    · refine .inl ⟨"node_modules", (mem_ignorePatterns_iff hdev).2 (.inl rfl), ?_⟩
      obtain ⟨r, rfl⟩ := List.head?_eq_some_iff.1 hpackages
      have hcomponents : components "node_modules" = [.name "node_modules"] := by decide
      rw [covers_below_iff rfl (by decide), hcomponents, hnames]
      exact ⟨(r ++ more).map .name, rfl⟩
    · rcases hstraight with rfl | ⟨hne, hstar, hup⟩
      · have hmem := (mem_ignorePatterns_iff hdev).2 (.inr (.inr ⟨htext, by decide⟩))
        exact .inl ⟨"*", hmem, (covers_ending_iff rfl).2 (List.nil_suffix)⟩
      · have hmem := (mem_ignorePatterns_iff hdev).2 (.inr (.inr ⟨htext, hne⟩))
        refine .inl ⟨text, hmem, ?_⟩
        obtain ⟨own, hown, hlocation⟩ := exists_names_of_components hroot
          (components_relativeText? hroot htext) hup b.profile.root
        obtain rfl : below = own := List.append_cancel_left (hinside.symm.trans hlocation)
        cases hchars : text.toList with
        | nil => exact absurd (String.toList_eq_nil_iff.1 hchars) hne
        | cons c r =>
          have hc : c ≠ '*' := by
            rintro rfl
            rw [hchars] at hstar
            exact hstar rfl
          rw [covers_below_iff hchars hc, hown, hnames, List.map_append]
          exact List.prefix_append _ _

/-! ## What is seen -/

theorem isName_singleton {c : Char} (hslash : c ≠ '/') (hpoint : c ≠ '.') :
    IsName (String.singleton c) := by
  have htext : (String.singleton c).toList = [c] := String.toList_singleton c
  refine ⟨?_, ?_, ?_, ?_⟩
  · intro heq
    rw [heq] at htext
    cases htext
  · intro heq
    rw [heq] at htext
    exact hpoint (List.cons.inj htext).1.symm
  · intro heq
    rw [heq] at htext
    cases htext
  · rw [htext, List.mem_singleton]
    exact fun heq => hslash heq.symm

theorem getLast?_slashed (below : List String) (c : Char) :
    (slashed (below ++ [String.singleton c])).toList.getLast? = some c := by
  have htext : (String.singleton c).toList = [c] := String.toList_singleton c
  by_cases hbelow : below = []
  · simp [hbelow, slashed, htext]
  · simp [slashed_append_singleton hbelow]

/-- An ending that covers a text is empty or ends with its last character. -/
theorem getLast?_of_suffix {ending chars : List Char} {c : Char} (h : ending <:+ chars)
    (hlast : chars.getLast? = some c) (hne : ending ≠ []) : ending.getLast? = some c := by
  obtain ⟨front, rfl⟩ := h
  rwa [List.getLast?_append_of_ne_nil _ hne] at hlast

/-- When a file with a name of one letter is not seen, its directory is hidden, lies among the
packages, or is covered by the rule for it. -/
theorem quiet_or_covers_of_ignores (hdev : b.profile.isDevelopment = true)
    (hroot : isAbsolute b.profile.root = true) (hplain : below.Plain) {c : Char}
    (hc : c = 'x' ∨ c = 'y')
    (h : ignores b.profile.root (ignorePatterns b.profile)
      (join b.profile.root (slashed (below ++ [String.singleton c]))) = true) :
    (∃ name ∈ below, isHidden (.name name) = true) ∨ below.head? = some "node_modules" ∨
      ∃ text, relativeText? b.profile.root b.profile.outputDirectory = some text ∧ text ≠ "" ∧
        (IgnoreRule.ofText text).covers (slashed (below ++ [String.singleton c])) = true := by
  have hletter : IsName (String.singleton c) ∧ isHidden (.name (String.singleton c)) = false ∧
      String.singleton c ≠ "node_modules" ∧ c ≠ 'p' := by
    rcases hc with rfl | rfl
    · exact ⟨isName_singleton (by decide) (by decide), by decide, by decide, by decide⟩
    · exact ⟨isName_singleton (by decide) (by decide), by decide, by decide, by decide⟩
  obtain ⟨hname, hhidden, hpackages, hp⟩ := hletter
  have hnames : Plain _ := Plain.append_singleton hplain hname
  have hne : below ++ [String.singleton c] ≠ [] := by simp
  have hcomponents := components_slashed hnames hne
  rw [ignores, relativeText?_join_slashed hroot hnames hne] at h
  simp only [Bool.or_eq_true, List.any_eq_true, hcomponents] at h
  rcases h with ⟨text, htext, hcovers⟩ | ⟨component, hmem, hcovers⟩
  · rcases (mem_ignorePatterns_iff hdev).1 htext with rfl | rfl | ⟨hown, hsome⟩
    · have hpath : components "node_modules" = [.name "node_modules"] := by decide
      rw [covers_below_iff rfl (by decide), hpath, hcomponents] at hcovers
      cases below with
      | nil =>
        have hhead := (List.cons_prefix_cons.1 hcovers).1
        exact absurd (Component.name.inj hhead).symm hpackages
      | cons first r =>
        have hhead := (List.cons_prefix_cons.1 hcovers).1
        exact .inr (.inl (by rw [Component.name.inj hhead]; rfl))
    · have hlast :=
        getLast?_of_suffix ((covers_ending_iff rfl).1 hcovers) (getLast?_slashed below c) (by decide)
      exact absurd (Option.some.inj hlast).symm hp
    · exact .inr (.inr ⟨text, hown, hsome, hcovers⟩)
  · obtain ⟨name, hname, rfl⟩ := List.mem_map.1 hmem
    rcases List.mem_append.1 hname with hname | hname
    · exact .inl ⟨name, hname, hcovers⟩
    · rw [List.mem_singleton.1 hname, hhidden] at hcovers
      cases hcovers

/-- A rule that covers files with different last letters is a path without detours, or covers
everything. -/
theorem straight_of_covers (hplain : below.Plain) (hne : text ≠ "")
    (h : ∀ c : Char, c = 'x' ∨ c = 'y' →
      (IgnoreRule.ofText text).covers (slashed (below ++ [String.singleton c])) = true) :
    Straight text := by
  have hx := h 'x' (.inl rfl)
  have hy := h 'y' (.inr rfl)
  cases htext : text.toList with
  | nil => exact absurd (String.toList_eq_nil_iff.1 htext) hne
  | cons first r =>
    by_cases hstar : first = '*'
    · subst hstar
      rw [covers_ending_iff htext] at hx hy
      by_cases hr : r = []
      · exact .inl (String.toList_inj.1 (by rw [htext, hr]; rfl))
      · have hlast := getLast?_of_suffix hx (getLast?_slashed below 'x') hr
        rw [getLast?_of_suffix hy (getLast?_slashed below 'y') hr] at hlast
        exact absurd (Option.some.inj hlast) (by decide)
    · have hnames := hplain.append_singleton (isName_singleton (c := 'x') (by decide) (by decide))
      rw [covers_below_iff htext hstar, components_slashed hnames (by simp)] at hx
      refine .inr ⟨hne, ?_, ?_⟩
      · rw [htext]
        exact fun hhead => hstar (Option.some.inj hhead)
      · intro hup
        obtain ⟨name, -, hname⟩ := List.mem_map.1 (hx.subset hup)
        cases hname

/-- The way from the root by names tells a location. -/
theorem tells_join {root : String} (hroot : isAbsolute root = true) (hplain : below.Plain)
    (hne : below ≠ []) : Tells root (ofPath root root ++ below) (join root (slashed below)) := by
  refine ⟨ofPath_join_slashed hroot hplain hne root, ?_⟩
  intro rest hrest hup
  have hrelative := relativeText?_join_slashed hroot hplain hne
  have hpath := components_relativeText? hroot hrelative
  rw [components_slashed hplain hne] at hpath
  rw [hpath, stripComponents?_eq_some_iff] at hrest
  rw [← List.append_cancel_left hrest] at hup
  obtain ⟨name, -, hname⟩ := List.mem_map.1 hup
  cases hname

/-- Of the files that a session writes below its output directory none is seen, however it is told,
exactly when the directory is hidden, lies among the packages, or is configured by a text that leads
there straight. -/
theorem ignores_written_iff (b : Bundler) (hdev : b.profile.isDevelopment = true)
    (hroot : isAbsolute b.profile.root = true)
    (hinside : ofPath b.profile.root b.profile.outputDirectory =
      ofPath b.profile.root b.profile.root ++ below) (base : String) :
    (∀ file, Written b base file → ∀ told,
        Tells b.profile.root (ofPath b.profile.root file) told →
        ignores b.profile.root (ignorePatterns b.profile) told = true) ↔
      (∃ name ∈ below, isHidden (.name name) = true) ∨ below.head? = some "node_modules" ∨
        ∃ text, relativeText? b.profile.root b.profile.outputDirectory = some text ∧
          Straight text := by
  have hplain := plain_ofPath b.profile.root b.profile.outputDirectory
  have hbelow : below.Plain := by
    rw [hinside] at hplain
    exact fun name hname => hplain name (List.mem_append_right _ hname)
  constructor
  · intro hnone
    -- two files that differ in their last letters are enough to tell
    have hletter : ∀ c : Char, c = 'x' ∨ c = 'y' →
        ignores b.profile.root (ignorePatterns b.profile)
          (join b.profile.root (slashed (below ++ [String.singleton c]))) = true := by
      intro c hc
      have hname : IsName (String.singleton c) ∧ '\x00' ∉ (String.singleton c).toList := by
        rcases hc with rfl | rfl
        · exact ⟨isName_singleton (by decide) (by decide), by decide⟩
        · exact ⟨isName_singleton (by decide) (by decide), by decide⟩
      have htarget := Output.target?_of_isName hplain hname.1 hname.2
      rw [← absolute_outputDirectory hroot base] at htarget
      refine hnone _ ⟨_, .inl ⟨_, htarget⟩, .inl rfl⟩ _ ?_
      rw [ofPath_toPath (hplain.append_singleton hname.1), hinside, List.append_assoc]
      exact tells_join hroot (hbelow.append_singleton hname.1) (by simp)
    rcases quiet_or_covers_of_ignores hdev hroot hbelow (.inl rfl) (hletter 'x' (.inl rfl)) with
      hhidden | hpackages | ⟨text, htext, hne, hx⟩
    · exact .inl hhidden
    · exact .inr (.inl hpackages)
    rcases quiet_or_covers_of_ignores hdev hroot hbelow (.inr rfl) (hletter 'y' (.inr rfl)) with
      hhidden | hpackages | ⟨other, hother, -, hy⟩
    · exact .inl hhidden
    · exact .inr (.inl hpackages)
    · obtain rfl : text = other := Option.some.inj (htext.symm.trans hother)
      refine .inr (.inr ⟨text, htext, straight_of_covers hbelow hne ?_⟩)
      rintro c (rfl | rfl)
      · exact hx
      · exact hy
  · intro hquiet file hwritten told htells
    exact ignores_of_above hdev hroot hinside hquiet (above_of_written hroot hwritten).2 htells

/-- A session in development whose output directory is configured by a text. -/
def placed (path : String) : Bundler :=
  { profile :=
      .ofLayer
        { root := some "/app", entries := some [("main", ["a.js"])], outputPath := some path }
        .development {}
    registry := [] }

/-- Points and repeated separators are no detour. -/
theorem ignores_written_dotted :
    (placed "./build//out/").profile.isDevelopment = true ∧
      isAbsolute (placed "./build//out/").profile.root = true ∧
      ofPath (placed "./build//out/").profile.root (placed "./build//out/").profile.outputDirectory =
        ofPath (placed "./build//out/").profile.root (placed "./build//out/").profile.root ++
          ["build", "out"] ∧
      ∀ file, Written (placed "./build//out/") "/" file → ∀ told,
        Tells (placed "./build//out/").profile.root
          (ofPath (placed "./build//out/").profile.root file) told →
        ignores (placed "./build//out/").profile.root
          (ignorePatterns (placed "./build//out/").profile) told = true := by
  have hinside : ofPath (placed "./build//out/").profile.root
      (placed "./build//out/").profile.outputDirectory =
        ofPath (placed "./build//out/").profile.root (placed "./build//out/").profile.root ++
          ["build", "out"] := by
    decide
  have htext : relativeText? (placed "./build//out/").profile.root
      (placed "./build//out/").profile.outputDirectory = some "build//out" ∧
        Straight "build//out" := by
    decide
  refine ⟨rfl, rfl, hinside, ?_⟩
  exact (ignores_written_iff (placed "./build//out/") rfl rfl hinside "/").2
    (.inr (.inr ⟨_, htext⟩))

/-- Where the configured text goes up again, the script of a page is seen, and so would every build
be: the rule says `src/../dist`, the file goes to `dist`. -/
theorem not_ignores_written_detour :
    ¬∀ (b : Bundler) (below : Location), b.profile.isDevelopment = true →
      isAbsolute b.profile.root = true →
      ofPath b.profile.root b.profile.outputDirectory =
        ofPath b.profile.root b.profile.root ++ below →
      ∀ file, Written b "/" file → ∀ told,
        Tells b.profile.root (ofPath b.profile.root file) told →
        ignores b.profile.root (ignorePatterns b.profile) told = true := by
  intro h
  have hinside : ofPath (placed "src/../dist").profile.root
      (placed "src/../dist").profile.outputDirectory =
        ofPath (placed "src/../dist").profile.root (placed "src/../dist").profile.root ++
          ["dist"] := by
    decide
  have htarget : (Output.target?
      (Output.absolute "/" (placed "src/../dist").profile.outputDirectory)
      "main.bundle.js").toOption = some "/app/dist/main.bundle.js" := by
    decide +kernel
  have hforward : stripComponents? (components "/app") (components "/app/dist/main.bundle.js") =
      some [.name "dist", .name "main.bundle.js"] := by
    decide
  have hseen : ignores (placed "src/../dist").profile.root
      (ignorePatterns (placed "src/../dist").profile) "/app/dist/main.bundle.js" = false := by
    decide
  have hwritten : Written (placed "src/../dist") "/" "/app/dist/main.bundle.js" := by
    refine ⟨_, .inl ⟨"main.bundle.js", ?_⟩, .inl rfl⟩
    cases hresult : Output.target?
        (Output.absolute "/" (placed "src/../dist").profile.outputDirectory) "main.bundle.js" with
    | error e =>
      rw [hresult] at htarget
      cases htarget
    | ok full =>
      rw [hresult] at htarget
      rw [Option.some.inj htarget]
  have htells : Tells (placed "src/../dist").profile.root
      (ofPath (placed "src/../dist").profile.root "/app/dist/main.bundle.js")
      "/app/dist/main.bundle.js" := by
    refine ⟨rfl, ?_⟩
    intro rest hrest
    obtain rfl := Option.some.inj (hforward.symm.trans hrest)
    decide
  have hignored := h (placed "src/../dist") ["dist"] rfl rfl hinside _ hwritten _ htells
  rw [hseen] at hignored
  cases hignored

end Watch

end Bindery
