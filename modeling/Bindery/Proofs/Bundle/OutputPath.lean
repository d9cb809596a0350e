import Bindery.Proofs.Bundle.FileName
import Bindery.Proofs.Graph.Resolution
import Bindery.Proofs.Module.Id

/-!
# Paths inside the output directory

A file name is continued from the output directory and cleaned, and what comes out is either inside the
directory or refused. It makes no difference that the name is cleaned before it is joined: cleaning
works off its steps from the left, so what is left of the name leads where the whole name did.

The names of the files of a chunk are never refused. Whatever a chunk is called, they are single names.

* `Path.Inside` : strictly below a directory.
* `Path.foldl_step_cleanComponents`, `Path.clean_join_clean` : cleaning twice is cleaning once.
* `Output.target?_eq_ok_iff` : which names are accepted, and what comes out.
* `Output.target?_inside_only` : output stays inside its directory.
-/

namespace Bindery

namespace Path

variable {base path : String}

/-- Strictly below a directory: behind its components stands at least one name, and nothing else. -/
def Inside (base path : String) : Prop :=
  ∃ names : List String, names ≠ [] ∧ components path = components base ++ names.map .name

/-! ## Cleaning twice -/

/-- Whether a step is taken before or after what has been cleaned is put behind something else makes no
difference. -/
theorem foldl_step_reverse_step (acc : List Component) (c : Component) (done : List Component) :
    (step acc c).reverse.foldl step done = step (acc.reverse.foldl step done) c := by
  cases c with
  | here => rfl
  | root => simp [step]
  | name text => simp [step]
  | up =>
    -- a name is taken off at once, and everything else stays
    cases acc with
    | nil => rfl
    | cons last above => cases last <;> simp [step]

/-- What is cleaned leads where it did before, from wherever it is gone on. -/
theorem foldl_step_cleanComponents (cs done : List Component) :
    (cleanComponents cs).foldl step done = cs.foldl step done := by
  induction cs using List.reverseRecOn with
  | nil => rfl
  | append_singleton cs c ih =>
    have hlast : cleanComponents (cs ++ [c]) = (step (cs.foldl step []) c).reverse := by
      rw [cleanComponents, List.foldl_append, List.foldl_cons, List.foldl_nil]
    rw [hlast, foldl_step_reverse_step, List.foldl_append, List.foldl_cons, List.foldl_nil]
    exact congrArg (step · c) ih

/-- What is left of a relative path when it is cleaned are names and ways up. -/
theorem text_of_mem_cleanComponents (h : isAbsolute path = false) {c : Component}
    (hc : c ∈ cleanComponents (components path)) :
    c ≠ .root ∧ Component.ofSegment c.text = c ∧ c.text ≠ "" ∧ c.text ≠ "." ∧ '/' ∉ c.text.toList := by
  have hmem : c ∈ (segments path).map Component.ofSegment := by
    rw [cleanComponents, foldl_step_components h, List.mem_reverse] at hc
    exact (mem_of_mem_foldl_step _ _ hc).resolve_right List.not_mem_nil
  obtain ⟨segment, hsegment, rfl⟩ := List.mem_map.1 hmem
  have htext : (Component.ofSegment segment).text = segment := by
    unfold Component.ofSegment
    split
    · next hup => exact hup.symm
    · rfl
  refine ⟨?_, by rw [htext], ?_⟩
  · intro hroot
    exact root_notMem_map_ofSegment (segments path) (hroot ▸ hmem)
  · rw [htext]
    exact segment_spec hsegment

/-- What a relative path is cleaned to has the components that were left of it. -/
theorem map_ofSegment_segments_clean (h : isAbsolute path = false) :
    (segments (clean path)).map .ofSegment = cleanComponents (components path) := by
  have hkept := @text_of_mem_cleanComponents path h
  unfold clean
  cases hleft : cleanComponents (components path) with
  | nil => decide
  | cons c r =>
    rw [hleft] at hkept
    have hpath : ofComponents (c :: r) = slashed ((c :: r).map Component.text) := by
      unfold ofComponents
      split
      · next heq =>
        exact absurd (List.cons.inj heq).1 (hkept List.mem_cons_self).1
      · rfl
    have htexts : ∀ text ∈ (c :: r).map Component.text,
        text ≠ "" ∧ text ≠ "." ∧ '/' ∉ text.toList := by
      intro text htext
      obtain ⟨other, hother, rfl⟩ := List.mem_map.1 htext
      exact (hkept hother).2.2
    have hback : ∀ other ∈ c :: r, (Component.ofSegment ∘ Component.text) other = id other :=
      fun other hother => (hkept hother).2.1
    simp only [hpath]
    rw [segments_slashed_of_kept htexts (by simp), List.map_map, List.map_congr_left hback,
      List.map_id]

/-- A name that is cleaned before it is joined leads where it does when it is not. -/
theorem clean_join_clean (hbase : isAbsolute base = true) (path : String) :
    clean (join base (clean path)) = clean (join base path) := by
  by_cases habsolute : isAbsolute path = true
  · rw [join_of_isAbsolute (isAbsolute_clean habsolute), join_of_isAbsolute habsolute,
      Location.clean_eq_toPath habsolute "", ModuleId.clean_toPath (Location.plain_ofPath "" path)]
  · rw [Bool.not_eq_true] at habsolute
    have hrelative : isAbsolute (clean path) = false := by
      rw [← Bool.not_eq_true] at habsolute ⊢
      exact fun hclean => habsolute (isAbsolute_of_isAbsolute_clean hclean)
    have hsame : cleanComponents (components (join base (clean path))) =
        cleanComponents (components (join base path)) := by
      rw [cleanComponents, components_join hbase hrelative, List.foldl_append,
        map_ofSegment_segments_clean habsolute, foldl_step_cleanComponents,
        foldl_step_components habsolute, ← List.foldl_append, ← components_join hbase habsolute,
        cleanComponents]
    rw [clean, hsame, clean]

/-! ## Below a directory -/

theorem inside_toPath_iff {above loc : Location} (habove : above.Plain) (hloc : loc.Plain) :
    Inside (Location.toPath above) (Location.toPath loc) ↔ above.Above loc := by
  have hinjective : ∀ a b, Component.name a = .name b → a = b := fun a b => Component.name.inj
  rw [Inside, Location.components_toPath habove, Location.components_toPath hloc]
  constructor
  · rintro ⟨names, hne, heq⟩
    rw [List.cons_append, ← List.map_append] at heq
    obtain rfl := (List.map_inj_right hinjective).1 (List.cons.inj heq).2
    exact ⟨List.prefix_append above names, by simpa using hne⟩
  · rintro ⟨⟨names, rfl⟩, hother⟩
    exact ⟨names, by simpa using hother, by simp⟩

/-- The text of a location holds neither points nor ways up. -/
theorem splitOn_toPath {loc : Location} (hloc : loc.Plain) {stretch : List Char}
    (hstretch : stretch ∈ (Location.toPath loc).toList.splitOn '/') :
    stretch ≠ ['.'] ∧ stretch ≠ ['.', '.'] := by
  have htext : (Location.toPath loc).toList.splitOn '/' = [] :: (slashed loc).toList.splitOn '/' := by
    have hsplit := List.splitOn_append_cons_self (a := '/') [] (slashed loc).toList
    simpa [Location.toPath] using hsplit
  rw [htext] at hstretch
  rcases List.mem_cons.1 hstretch with rfl | hmem
  · simp
  · by_cases hne : loc = []
    · subst hne
      obtain rfl : stretch = [] := by simpa [slashed] using hmem
      simp
    · rw [splitOn_slashed hloc hne] at hmem
      obtain ⟨name, hname, rfl⟩ := List.mem_map.1 hmem
      obtain ⟨-, hpoint, hup, -⟩ := hloc name hname
      exact ⟨fun heq => hpoint (String.toList_inj.1 heq), fun heq => hup (String.toList_inj.1 heq)⟩

end Path

namespace Output

open Path Location

variable {base file full : String} {above : Location}

/-- A path is let through where it is inside the directory. -/
theorem refused_eq_false_iff {loc : Location} (habove : above.Plain) (hloc : loc.Plain) :
    (!isBelow (toPath above) (toPath loc) ||
        decide (components (toPath loc) = components (toPath above))) = false ↔
      Inside (toPath above) (toPath loc) := by
  have hinjective : ∀ a b, Component.name a = .name b → a = b := fun a b => Component.name.inj
  have hsame : components (toPath loc) = components (toPath above) ↔ above = loc := by
    constructor
    · intro heq
      rw [components_toPath hloc, components_toPath habove] at heq
      exact ((List.map_inj_right hinjective).1 (List.cons.inj heq).2).symm
    · rintro rfl
      rfl
  rw [inside_toPath_iff habove hloc, Bool.or_eq_false_iff, Bool.not_eq_false',
    isBelow_toPath_iff habove hloc, decide_eq_false_iff_not, hsame, Location.Above]

/-- Which names are accepted, and what comes out. -/
theorem target?_eq_ok_iff (habove : above.Plain) :
    target? (toPath above) file = .ok full ↔
      (file ≠ "" ∧ '\x00' ∉ file.toList ∧ Inside (toPath above) (clean (join (toPath above) file))) ∧
        full = clean (join (toPath above) file) := by
  have hplain := plain_ofPath "/" (join (toPath above) file)
  have hallowed := refused_eq_false_iff habove hplain
  rw [← clean_eq_toPath (isAbsolute_join (isAbsolute_toPath above) file) "/"] at hallowed
  unfold target?
  simp only [clean_join_clean (isAbsolute_toPath above), ← hallowed]
  split
  · next hinvalid =>
    rw [Bool.or_eq_true, decide_eq_true_eq, List.contains_iff_mem] at hinvalid
    constructor
    · intro h
      cases h
    · rintro ⟨⟨hne, hnul, -⟩, -⟩
      exact absurd hinvalid (not_or.2 ⟨hne, hnul⟩)
  · next hvalid =>
    rw [Bool.or_eq_true, decide_eq_true_eq, List.contains_iff_mem, not_or] at hvalid
    split
    · next hrefused =>
      constructor
      · intro h
        cases h
      · rintro ⟨⟨-, -, hpass⟩, -⟩
        rw [hrefused] at hpass
        cases hpass
    · next hpass =>
      rw [Bool.not_eq_true] at hpass
      constructor
      · intro h
        exact ⟨⟨hvalid.1, hvalid.2, hpass⟩, (Except.ok.inj h).symm⟩
      · rintro ⟨-, rfl⟩
        rfl

/-- A single name is accepted as that of a file directly in the directory. -/
theorem target?_direct (habove : above.Plain) {name : String} (hname : IsName name)
    (hnul : '\x00' ∉ name.toList) :
    target? (toPath above) name = .ok (join (toPath above) name) ∧
      parent? (join (toPath above) name) = some (toPath above) ∧
      fileName? (join (toPath above) name) = some name := by
  have hplain := habove.append_singleton hname
  have hfile : fileName? (toPath (above ++ [name])) = some name := by
    rw [fileName?, components_toPath hplain, List.map_append, List.map_singleton, ← List.cons_append,
      List.getLast?_concat]
  rw [join_toPath habove hname]
  exact ⟨target?_of_isName habove hname hnul, parent?_toPath hplain, hfile⟩

/-- Output stays inside its directory. A name is accepted where it leads below the directory, and the
path is the cleaned one. The files of a chunk and their source maps lie directly in the directory,
whatever the chunk is called. -/
theorem target?_inside_only (hbase : isAbsolute base = true) (hclean : clean base = base) :
    (∀ file, ((∃ full, target? base file = .ok full) ↔
        file ≠ "" ∧ '\x00' ∉ file.toList ∧ Inside base (clean (join base file))) ∧
      ∀ full, target? base file = .ok full →
        full = clean (join base file) ∧
          ∀ stretch ∈ full.toList.splitOn '/', stretch ≠ ['.'] ∧ stretch ≠ ['.', '.']) ∧
    ∀ (name : String) (role : FileName.Role) (bytes : ByteArray) (hashed : Bool),
      ∀ file ∈ [FileName.ofChunk name role bytes hashed,
          FileName.sourceMap (FileName.ofChunk name role bytes hashed)],
        target? base file = .ok (join base file) ∧ parent? (join base file) = some base ∧
          fileName? (join base file) = some file := by
  obtain ⟨above, habove, rfl⟩ : ∃ above : Location, above.Plain ∧ base = toPath above :=
    ⟨_, plain_ofPath "/" base, hclean.symm.trans (clean_eq_toPath hbase "/")⟩
  refine ⟨?_, ?_⟩
  · intro file
    refine ⟨?_, ?_⟩
    · simp only [target?_eq_ok_iff habove, exists_and_left, exists_eq, and_true]
    · intro full hfull
      obtain ⟨-, rfl⟩ := (target?_eq_ok_iff habove).1 hfull
      refine ⟨rfl, ?_⟩
      intro stretch hstretch
      rw [clean_eq_toPath (isAbsolute_join hbase file) "/"] at hstretch
      exact splitOn_toPath (plain_ofPath "/" _) hstretch
  · intro name role bytes hashed file hfile
    obtain ⟨hscript, hmap⟩ := FileName.isName_ofChunk name role bytes hashed
    have hnul := FileName.notMem_ofChunk (.inr rfl) name role bytes hashed
    rcases List.mem_cons.1 hfile with rfl | hfile
    · exact target?_direct habove hscript hnul
    · obtain rfl := List.mem_singleton.1 hfile
      refine target?_direct habove hmap ?_
      simpa [FileName.sourceMap] using hnul

/-- A name that leaves the directory and comes back is accepted, one that only begins like the
directory is not, and neither is the directory itself. A chunk may be called by a way up. -/
theorem target?_inside_only_out :
    isAbsolute "/work/out" = true ∧ clean "/work/out" = "/work/out" ∧
      target? "/work/out" "a/../../out//./b/x.js" = .ok "/work/out/b/x.js" ∧
      (∀ full, target? "/work/out" "../outside/x.js" ≠ .ok full) ∧
      (∀ full, target? "/work/out" "b/.." ≠ .ok full) ∧
      target? "/work/out" (FileName.ofChunk "../../x" .style ByteArray.empty false) =
        .ok "/work/out/.._.._x.css" := by
  have hbase : isAbsolute "/work/out" = true := by decide
  have hclean : clean "/work/out" = "/work/out" := by decide
  obtain ⟨hfiles, hchunks⟩ := target?_inside_only hbase hclean
  refine ⟨hbase, hclean, ?_, ?_, ?_, ?_⟩
  · have hinside : Inside "/work/out" (clean (join "/work/out" "a/../../out//./b/x.js")) :=
      ⟨["b", "x.js"], by decide, by decide⟩
    obtain ⟨full, hfull⟩ := (hfiles "a/../../out//./b/x.js").1.2 ⟨by decide, by decide, hinside⟩
    have hcleaned : clean (join "/work/out" "a/../../out//./b/x.js") = "/work/out/b/x.js" := by
      decide
    rw [hfull, ((hfiles _).2 full hfull).1, hcleaned]
  · intro full hfull
    obtain ⟨-, -, names, -, hnames⟩ := (hfiles "../outside/x.js").1.1 ⟨full, hfull⟩
    have hcomponents : components (clean (join "/work/out" "../outside/x.js")) =
        [.root, .name "work", .name "outside", .name "x.js"] := by decide
    have hbaseComponents : components "/work/out" = [.root, .name "work", .name "out"] := by
      decide
    rw [hcomponents, hbaseComponents] at hnames
    simp at hnames
  · intro full hfull
    obtain ⟨-, -, names, hne, hnames⟩ := (hfiles "b/..").1.1 ⟨full, hfull⟩
    have hcleaned : clean (join "/work/out" "b/..") = "/work/out" := by decide
    rw [hcleaned] at hnames
    exact hne (by simpa using hnames)
  · have hjoined : join "/work/out" (FileName.ofChunk "../../x" .style ByteArray.empty false) =
        "/work/out/.._.._x.css" := by decide
    rw [← hjoined]
    exact (hchunks "../../x" .style ByteArray.empty false _ List.mem_cons_self).1

end Output

end Bindery
