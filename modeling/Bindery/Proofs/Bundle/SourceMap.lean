import Mathlib.Data.List.Induction
import Bindery.Proofs.Bundle.ScriptLines
import Bindery.Proofs.Bundle.SourceMapTokens
import Bindery.Proofs.Graph.Snapshot

/-!
# Where the lines of a script lead

A source map is made from the text of a script alone: header lines are recognised, and what stands behind
one is counted. As long as no body has a line that begins like a header line, this finds the modules of
the chunk and nothing else. So the lines behind the header line of a module lead to its source line by
line, and the lines that remain lead to the last line of it.

* `SourceMap.getElem?_trace` : the lines behind one header line.
* `SourceMap.exists_place` : the place of a module among the sources.
* `ChunkText.lines_attributed` : every line of a script leads to its module.
-/

namespace Bindery

namespace SourceMap

variable {sources : List (ModuleId × String)} {current : Option SourceLine} {line : String}
  {start behind rest : List String} {i n : Nat}

/-! ## Lines one behind the other -/

theorem trace_header {id : String} (h : Loader.headerId? line.toList = some id)
    (current : Option SourceLine) (r : List (List Char)) :
    trace sources current (line.toList :: r) =
      none :: trace sources ((sources.findIdx? (·.1.text = id)).map (⟨·, 0⟩)) r := by
  cases current <;> rw [trace, h]

theorem trace_nowhere (h : ¬Loader.Heads line) (r : List (List Char)) :
    trace sources none (line.toList :: r) = none :: trace sources none r := by
  rw [trace, Loader.headerId?_eq_none h]

theorem trace_next (h : ¬Loader.Heads line) (i n : Nat) (r : List (List Char)) :
    trace sources (some ⟨i, n⟩) (line.toList :: r) =
      some ⟨i, min n (lastLine ((sources.map (·.2)).getD i ""))⟩ ::
        trace sources (some ⟨i, n + 1⟩) r := by
  rw [trace, Loader.headerId?_eq_none h]

/-- Lines can be followed one part after the other. -/
theorem exists_trace_append (sources : List (ModuleId × String)) (current : Option SourceLine)
    (ls : List (List Char)) :
    ∃ found current', found.length = ls.length ∧
      ∀ r, trace sources current (ls ++ r) = found ++ trace sources current' r := by
  induction ls generalizing current with
  | nil => exact ⟨[], current, rfl, fun r => rfl⟩
  | cons line more ih =>
    obtain ⟨here, current', hstep⟩ : ∃ here current', ∀ r, trace sources current (line :: r) =
        here :: trace sources current' r := by
      cases hid : Loader.headerId? line with
      | some id => exact ⟨none, _, fun r => by cases current <;> rw [trace, hid]⟩
      | none =>
        cases current with
        | none => exact ⟨none, none, fun r => by rw [trace, hid]⟩
        | some c => exact ⟨some _, some _, fun r => by rw [trace, hid]⟩
    obtain ⟨found, last, hlength, hfound⟩ := ih current'
    refine ⟨here :: found, last, by simp [hlength], ?_⟩
    intro r
    rw [List.cons_append, hstep, hfound, List.cons_append]

theorem length_trace (sources : List (ModuleId × String)) (current : Option SourceLine)
    (ls : List (List Char)) : (trace sources current ls).length = ls.length := by
  obtain ⟨found, current', hlength, hfound⟩ := exists_trace_append sources current ls
  have hall := hfound []
  rw [List.append_nil, trace, List.append_nil] at hall
  rw [hall, hlength]

/-- Before the first header line no line leads anywhere. -/
theorem getElem?_trace_nowhere (sources : List (ModuleId × String))
    (h : ∀ line ∈ start, ¬Loader.Heads line) (r : List (List Char)) {k : Nat} (hk : k < start.length) :
    (trace sources none (start.map String.toList ++ r))[k]? = some none := by
  induction start generalizing k with
  | nil => exact absurd hk (Nat.not_lt_zero k)
  | cons line more ih =>
    obtain ⟨hline, hmore⟩ := List.forall_mem_cons.1 h
    rw [List.map_cons, List.cons_append, trace_nowhere hline]
    cases k with
    | zero => rfl
    | succ k => exact ih hmore (Nat.lt_of_succ_lt_succ hk)

/-- Without a header line the lines of a source come one after the other, up to the last one. -/
theorem getElem?_trace_next (sources : List (ModuleId × String))
    (h : ∀ line ∈ behind, ¬Loader.Heads line) (i n : Nat) (r : List (List Char)) {k : Nat}
    (hk : k < behind.length) :
    (trace sources (some ⟨i, n⟩) (behind.map String.toList ++ r))[k]? =
      some (some ⟨i, min (n + k) (lastLine ((sources.map (·.2)).getD i ""))⟩) := by
  induction behind generalizing n k with
  | nil => exact absurd hk (Nat.not_lt_zero k)
  | cons line more ih =>
    obtain ⟨hline, hmore⟩ := List.forall_mem_cons.1 h
    rw [List.map_cons, List.cons_append, trace_next hline]
    cases k with
    | zero => rfl
    | succ k =>
      rw [List.getElem?_cons_succ, ih hmore (n + 1) (Nat.lt_of_succ_lt_succ hk), Nat.add_assoc,
        Nat.add_comm 1 k]

/-- A header line leads nowhere, and the lines behind it lead to the source of the module that it
names, whatever comes before it. -/
theorem getElem?_trace {id : String} (hid : Loader.headerId? line.toList = some id)
    (hplace : sources.findIdx? (·.1.text = id) = some i) (h : ∀ line ∈ behind, ¬Loader.Heads line)
    (current : Option SourceLine) (start rest : List String) :
    let found := trace sources current ((start ++ line :: (behind ++ rest)).map String.toList)
    found[start.length]? = some none ∧ ∀ k < behind.length, found[start.length + 1 + k]? =
      some (some ⟨i, min k (lastLine ((sources.map (·.2)).getD i ""))⟩) := by
  obtain ⟨before, current', hlength, hbefore⟩ :=
    exists_trace_append sources current (start.map String.toList)
  rw [List.length_map] at hlength
  have hfound : trace sources current ((start ++ line :: (behind ++ rest)).map String.toList) =
      before ++ none :: trace sources (some ⟨i, 0⟩)
        (behind.map String.toList ++ rest.map String.toList) := by
    rw [List.map_append, hbefore, List.map_cons, trace_header hid, hplace, List.map_append]
    rfl
  intro found
  refine ⟨?_, ?_⟩
  · rw [show found = _ from hfound, ← hlength, List.getElem?_append_right (Nat.le_refl _),
      Nat.sub_self]
    rfl
  · intro k hk
    have hnext := getElem?_trace_next sources h i 0 (rest.map String.toList) hk
    rw [Nat.zero_add] at hnext
    have hplace : start.length + 1 + k - before.length = k + 1 := by omega
    rw [show found = _ from hfound, List.getElem?_append_right (by omega), hplace,
      List.getElem?_cons_succ, hnext]

/-- No line leads behind the last line of its source. -/
theorem bounded_of_mem_trace {target : SourceLine}
    (hcurrent : ∀ c ∈ current, c.source < sources.length) {ls : List (List Char)}
    (h : some target ∈ trace sources current ls) :
    target.source < sources.length ∧
      target.line ≤ lastLine ((sources.map (·.2)).getD target.source "") := by
  induction ls generalizing current with
  | nil => cases h
  | cons line r ih =>
    unfold trace at h
    split at h
    · refine ih ?_ ((List.mem_cons.1 h).resolve_left (Option.some_ne_none _))
      intro c hc
      obtain ⟨i, hi, rfl⟩ := Option.map_eq_some_iff.1 hc
      exact (List.findIdx?_eq_some_iff_getElem.1 hi).1
    · split at h
      · exact ih (by simp) ((List.mem_cons.1 h).resolve_left (Option.some_ne_none _))
      · next c =>
        rcases List.mem_cons.1 h with heq | h
        · obtain rfl := Option.some.inj heq
          exact ⟨hcurrent c rfl, Nat.min_le_right _ _⟩
        · exact ih (by simpa using hcurrent) h

/-! ## Sources -/

theorem distinct_append_singleton (sources : List (ModuleId × String)) (s : ModuleId × String) :
    distinct (sources ++ [s]) =
      if (distinct sources).any (·.1 = s.1) then distinct sources else distinct sources ++ [s] := by
  rw [distinct, List.foldl_append]
  rfl

theorem mem_of_mem_distinct {p : ModuleId × String} (h : p ∈ distinct sources) : p ∈ sources := by
  induction sources using List.reverseRecOn with
  | nil => exact h
  | append_singleton above s ih =>
    rw [distinct_append_singleton] at h
    split at h
    · exact List.mem_append_left _ (ih h)
    · exact (List.mem_append.1 h).elim (fun h => List.mem_append_left _ (ih h))
        (List.mem_append_right above)

/-- Every module keeps a source. -/
theorem exists_mem_distinct {p : ModuleId × String} (h : p ∈ sources) :
    ∃ q ∈ distinct sources, q.1 = p.1 := by
  induction sources using List.reverseRecOn with
  | nil => cases h
  | append_singleton above s ih =>
    rw [distinct_append_singleton]
    split
    · next hany =>
      rcases List.mem_append.1 h with h | h
      · exact ih h
      · obtain rfl := List.mem_singleton.1 h
        simpa using List.any_eq_true.1 hany
    · rcases List.mem_append.1 h with h | h
      · obtain ⟨q, hq, hid⟩ := ih h
        exact ⟨q, List.mem_append_left _ hq, hid⟩
      · exact ⟨s, List.mem_append_right _ (List.mem_singleton_self s),
          (congrArg Prod.fst (List.mem_singleton.1 h)).symm⟩

/-- Where every module has one text, a module has a place among the sources, and its text is there. -/
theorem exists_place {id : ModuleId} {text : String} (h : (id, text) ∈ sources)
    (hone : ∀ p ∈ sources, p.1 = id → p.2 = text) :
    ∃ i, (distinct sources).findIdx? (·.1.text = id.text) = some i ∧
      (distinct sources)[i]? = some (id, text) := by
  obtain ⟨q, hq, hid⟩ := exists_mem_distinct h
  have hfound : ((distinct sources).findIdx? (·.1.text = id.text)).isSome = true := by
    rw [List.findIdx?_isSome, List.any_eq_true]
    exact ⟨q, hq, by simp [hid]⟩
  obtain ⟨i, hi⟩ := Option.isSome_iff_exists.1 hfound
  obtain ⟨hlt, hplace, -⟩ := List.findIdx?_eq_some_iff_getElem.1 hi
  have hsame : (distinct sources)[i].1 = id := congrArg ModuleId.mk (of_decide_eq_true hplace)
  have htext := hone _ (mem_of_mem_distinct (List.getElem_mem hlt)) hsame
  exact ⟨i, hi, by rw [List.getElem?_eq_getElem hlt, ← hsame, ← htext]⟩

end SourceMap

namespace ChunkText

variable {s : Settings} {g : ModuleGraph} {outputs : ModuleOutputs} {c : Chunk} {script file : String}
  {b : ModuleId × String} {before after : List (ModuleId × String)}

/-! ## The lines of a chunk -/

/-- The lines of a script before the header line that follows some definitions. -/
def linesBefore (s : Settings) (g : ModuleGraph) (before : List (ModuleId × String)) : List String :=
  Loader.preludeLines ++ before.flatMap (block s g)

/-- The lines that run the roots of a chunk. -/
def bootLines (g : ModuleGraph) (c : Chunk) : List String := (roots g c).map Loader.bootLine

/-- The lines of a script behind a header line, up to the next one or to the end of the script. -/
def linesBehind (s : Settings) (g : ModuleGraph) (c : Chunk) (b : ModuleId × String)
    (after : List (ModuleId × String)) : List String :=
  behindHeader s b ++ if after = [] then bootLines g c else []

/-- No line of a body begins like a header line. -/
def Headless (s : Settings) (bodies : List (ModuleId × String)) : Prop :=
  ∀ b ∈ bodies, ∀ line ∈ Text.linesOf (printed s b), ¬Loader.Heads line

instance (s : Settings) (bodies : List (ModuleId × String)) : Decidable (Headless s bodies) :=
  inferInstanceAs (Decidable (∀ b ∈ bodies, ∀ line ∈ Text.linesOf (printed s b), ¬Loader.Heads line))

theorem not_heads_preludeLines : ∀ line ∈ Loader.preludeLines, ¬Loader.Heads line := by
  have hhead : ∀ line ∈ Loader.preludeLines, (Text.trimStart line.toList).head? ≠ some '_' := by
    unfold Loader.preludeLines
    repeat
      refine Text.forall_mem_ofList_cons
        (P := fun cs => (Text.trimStart cs).head? ≠ some '_') (by decide +kernel) ?_
    exact List.forall_mem_nil _
  exact fun line hline => Loader.not_heads_of_head? (hhead line hline)

theorem not_heads_bootLine (id : ModuleId) : ¬Loader.Heads (Loader.bootLine id) := by
  have htrim : Text.trimStart (Loader.bootLine id).toList = (Loader.bootLine id).toList :=
    Text.trimStart_of_head? (by simp [Loader.toList_bootLine])
  rw [Loader.Heads, htrim]
  simp [Loader.headerStart, Loader.toList_bootLine]

theorem not_heads_linesBehind (h : ∀ line ∈ Text.linesOf (printed s b), ¬Loader.Heads line)
    (g : ModuleGraph) (c : Chunk) (after : List (ModuleId × String)) :
    ∀ line ∈ linesBehind s g c b after, ¬Loader.Heads line := by
  have hclosing : ¬Loader.Heads Loader.closing := by decide
  intro line hline
  simp only [linesBehind, behindHeader, List.mem_append, List.mem_singleton] at hline
  rcases hline with (hbody | rfl) | hboot
  · exact h line hbody
  · exact hclosing
  · split at hboot
    · obtain ⟨id, -, rfl⟩ := List.mem_map.1 hboot
      exact not_heads_bootLine id
    · cases hboot

/-- The lines of a script around one of its header lines. -/
theorem exists_linesOf_script (h : (ofChunk s g outputs c).script = some script)
    (hbodies : bodies (parts s outputs c.modules) = before ++ b :: after) :
    ∃ rest, Text.linesOf script =
        linesBefore s g before ++ headerLine g b :: (linesBehind s g c b after ++ rest) ∧
      rest.head? = after.head?.map (headerLine g) := by
  cases after with
  | nil =>
    refine ⟨[], ?_, rfl⟩
    rw [linesOf_script h, hbodies]
    simp [linesBefore, linesBehind, bootLines, block]
  | cons next more =>
    refine ⟨(next :: more).flatMap (block s g) ++ bootLines g c, ?_, rfl⟩
    rw [linesOf_script h, hbodies]
    simp [linesBefore, linesBehind, bootLines, block]

/-- A module of the script has its text among the sources, and nothing else. -/
theorem mem_sources {text : String} {id : ModuleId} :
    (id, text) ∈ (ofChunk s g outputs c).sources ↔
      (∃ body, (id, body) ∈ bodies (parts s outputs c.modules)) ∧
        ∃ m, g.module? id = some m ∧ m.text = text := by
  simp only [ofChunk, List.mem_filterMap, Option.map_eq_some_iff, Prod.mk.injEq, Prod.exists]
  constructor
  · rintro ⟨x, body, hbody, m, hm, rfl, rfl⟩
    exact ⟨⟨body, hbody⟩, m, hm, rfl⟩
  · rintro ⟨⟨body, hbody⟩, m, hm, rfl⟩
    exact ⟨id, body, hbody, m, hm, rfl, rfl⟩

/-- A module of the script has a place among the sources of the map, at which its text is. -/
theorem exists_place_of_mem (hcontains : g.contains b.1 = true)
    (hb : b ∈ bodies (parts s outputs c.modules)) :
    ∃ m i, g.module? b.1 = some m ∧
      (SourceMap.distinct (ofChunk s g outputs c).sources).findIdx? (·.1.text = b.1.text) = some i ∧
      (SourceMap.distinct (ofChunk s g outputs c).sources)[i]? = some (b.1, m.text) := by
  obtain ⟨m, hm⟩ := ModuleGraph.exists_module?_iff.2 hcontains
  have hmem : (b.1, m.text) ∈ (ofChunk s g outputs c).sources := mem_sources.2 ⟨⟨b.2, hb⟩, m, hm, rfl⟩
  have hone : ∀ p ∈ (ofChunk s g outputs c).sources, p.1 = b.1 → p.2 = m.text := by
    rintro ⟨id, text⟩ hp rfl
    obtain ⟨-, m', hm', rfl⟩ := mem_sources.1 hp
    rw [Option.some.inj (hm'.symm.trans hm)]
  obtain ⟨i, hplace, hsource⟩ := SourceMap.exists_place hmem hone
  exact ⟨m, i, hm, hplace, hsource⟩

/-- The lines of the map of a script. -/
theorem lines_ofScript (file script : String) (sources : List (ModuleId × String)) :
    (SourceMap.ofScript file script sources).lines =
      SourceMap.trace (SourceMap.distinct sources) none
        ((Text.linesOf script).map String.toList) := by
  simp [SourceMap.ofScript, Text.linesOf, Function.comp_def]

/-- The lines that set up the table lead nowhere. -/
theorem getElem?_lines_prelude (file : String) (h : (ofChunk s g outputs c).script = some script)
    (sources : List (ModuleId × String)) {place : Nat} (hplace : place < Loader.preludeLines.length) :
    (SourceMap.ofScript file script sources).lines[place]? = some none := by
  rw [lines_ofScript, linesOf_script h, List.map_append]
  exact SourceMap.getElem?_trace_nowhere _ not_heads_preludeLines _ hplace

/-- The header line of a module leads nowhere, and the lines behind it lead to its source. -/
theorem getElem?_lines_behind (file : String) (h : (ofChunk s g outputs c).script = some script)
    (hbodies : bodies (parts s outputs c.modules) = before ++ b :: after)
    (hlines : ∀ line ∈ Text.linesOf (printed s b), ¬Loader.Heads line)
    {sources : List (ModuleId × String)} {i : Nat} {text : String}
    (hplace : (SourceMap.distinct sources).findIdx? (·.1.text = b.1.text) = some i)
    (hsource : (SourceMap.distinct sources)[i]? = some (b.1, text)) :
    let found := (SourceMap.ofScript file script sources).lines
    found[(linesBefore s g before).length]? = some none ∧
      ∀ k < (linesBehind s g c b after).length,
        found[(linesBefore s g before).length + 1 + k]? =
          some (some ⟨i, min k (SourceMap.lastLine text)⟩) := by
  obtain ⟨rest, hlayout, -⟩ := exists_linesOf_script h hbodies
  have htext : ((SourceMap.distinct sources).map (·.2)).getD i "" = text := by simp [hsource]
  rw [lines_ofScript, hlayout, ← htext]
  exact SourceMap.getElem?_trace (Loader.headerId?_header b.1 (dependencyMap g b.1)) hplace
    (not_heads_linesBehind hlines g c after) none (linesBefore s g before) rest

/-- No token is on a line that the script does not have, or leads to a line that its source does not
have. An empty source has one line, which is empty. -/
theorem exists_line_of_mem_tokens (file script : String) {t : SourceMap.Token}
    (ht : t ∈ SourceMap.tokensFrom 0
      (SourceMap.ofScript file script (ofChunk s g outputs c).sources).lines) :
    t.place < (Text.linesOf script).length ∧ ∃ m ∈ g.modules,
      (SourceMap.ofScript file script (ofChunk s g outputs c).sources).sources[t.source]? =
        some (Loader.address m.id.text, m.text) ∧
      t.line < max 1 (Text.linesOf m.text).length := by
  rw [lines_ofScript] at ht
  obtain ⟨k, target, hk, rfl⟩ := SourceMap.mem_tokensFrom ht
  obtain ⟨hsource, hline⟩ := SourceMap.bounded_of_mem_trace (by simp) (List.mem_of_getElem? hk)
  obtain ⟨hlt, -⟩ := List.getElem?_eq_some_iff.1 hk
  rw [SourceMap.length_trace, List.length_map] at hlt
  obtain ⟨⟨id, text⟩, hp⟩ : ∃ p,
      (SourceMap.distinct (ofChunk s g outputs c).sources)[target.source]? = some p :=
    ⟨_, List.getElem?_eq_getElem hsource⟩
  have hmem := SourceMap.mem_of_mem_distinct (List.mem_of_getElem? hp)
  obtain ⟨-, m, hm, rfl⟩ := mem_sources.1 hmem
  obtain ⟨hin, rfl⟩ := ModuleGraph.mem_of_module? hm
  have htext : ((SourceMap.distinct (ofChunk s g outputs c).sources).map (·.2)).getD
      target.source "" = m.text := by
    simp [hp]
  rw [htext, SourceMap.lastLine] at hline
  refine ⟨by simpa [SourceMap.Token.ofLine] using hlt, m, hin, ?_, ?_⟩
  · simp [SourceMap.ofScript, SourceMap.Token.ofLine, hp]
  · simp only [SourceMap.Token.ofLine, Text.linesOf, List.length_map]
    omega

/-- Every line of a script leads to its module. Neither the lines that set up the table nor header
lines lead anywhere, and the lines behind a header line, up to the next one or to the end of the script,
lead to the lines of the module's source one after the other, as far as there are any. -/
theorem lines_attributed (file : String) (hscript : (ofChunk s g outputs c).script = some script)
    (hmembers : ∀ id ∈ c.modules, g.contains id = true)
    (hheadless : Headless s (bodies (parts s outputs c.modules))) :
    let map := SourceMap.ofScript file script (ofChunk s g outputs c).sources
    ∃ tokens, SourceMap.tokens? map.mappings = some tokens ∧
      (∀ place < Loader.preludeLines.length, tokens.filter (·.place = place) = []) ∧
      (∀ before b after, bodies (parts s outputs c.modules) = before ++ b :: after →
        (∃ rest, Text.linesOf script =
            linesBefore s g before ++ headerLine g b :: (linesBehind s g c b after ++ rest) ∧
          rest.head? = after.head?.map (headerLine g)) ∧
        tokens.filter (·.place = (linesBefore s g before).length) = [] ∧
        ∃ m i, g.module? b.1 = some m ∧ map.sources[i]? = some (Loader.address b.1.text, m.text) ∧
          ∀ k < (linesBehind s g c b after).length,
            tokens.filter (·.place = (linesBefore s g before).length + 1 + k) =
              [{ place := (linesBefore s g before).length + 1 + k, column := 0, source := i
                 line := min k (SourceMap.lastLine m.text), sourceColumn := 0 }]) ∧
      ∀ t ∈ tokens, t.place < (Text.linesOf script).length ∧
        ∃ m ∈ g.modules, map.sources[t.source]? = some (Loader.address m.id.text, m.text) ∧
          t.line < max 1 (Text.linesOf m.text).length := by
  intro map
  refine ⟨_, SourceMap.tokens?_mappings map, ?_, ?_, ?_⟩
  · intro place hplace
    rw [SourceMap.filter_tokens, getElem?_lines_prelude file hscript _ hplace]
    rfl
  · intro before b after hbodies
    have hb : b ∈ bodies (parts s outputs c.modules) := hbodies ▸ by simp
    have hmember : b.1 ∈ c.modules := (mem_parts.1 (mem_bodies.1 hb)).1
    obtain ⟨m, i, hm, hplace, hsource⟩ := exists_place_of_mem (hmembers b.1 hmember) hb
    obtain ⟨hheader, hbehind⟩ :=
      getElem?_lines_behind file hscript hbodies (hheadless b hb) hplace hsource
    refine ⟨exists_linesOf_script hscript hbodies, ?_, m, i, hm, ?_, ?_⟩
    · rw [SourceMap.filter_tokens, hheader]
      rfl
    · simp [map, SourceMap.ofScript, hsource]
    · intro k hk
      rw [SourceMap.filter_tokens, hbehind k hk]
      rfl
  · intro t ht
    exact exists_line_of_mem_tokens file script ht

/-! ## A name that would break a line -/

/-- A page of a script whose name holds a quotation mark and a line feed, and of an empty one. -/
def oddPage : ModuleGraph :=
  .ofModules [("main", [⟨"b.js"⟩])]
    [{ Module.draft "a\"\n.js" "a" [] with source := "one\ntwo\n".toUTF8 },
      { Module.draft "b.js" "b" [] with source := "".toUTF8 }]

def oddOutputs : ModuleOutputs :=
  [(⟨"a\"\n.js"⟩, .code .script "one();\ntwo();"), (⟨"b.js"⟩, .code .script "three();\n")]

def oddChunk : Chunk :=
  { name := "main", kind := .initial, entry := some "main", group := none
    modules := [⟨"a\"\n.js"⟩, ⟨"b.js"⟩], size := 2 }

/-- The name of the first script breaks no line, and the line that runs the page leads to the one line of
the empty script. -/
theorem lines_attributed_oddPage :
    let s : Settings := { extractStyles := false, addressed := false, mode := .production }
    (∀ id ∈ oddChunk.modules, oddPage.contains id = true) ∧
      Headless s (bodies (parts s oddOutputs oddChunk.modules)) ∧
      ∃ script tokens i j, (ofChunk s oddPage oddOutputs oddChunk).script = some script ∧
        let map := SourceMap.ofScript "main.js" script (ofChunk s oddPage oddOutputs oddChunk).sources
        SourceMap.tokens? map.mappings = some tokens ∧
          map.sources[i]? = some ("sheaf:///a\"\n.js", "one\ntwo\n") ∧
          map.sources[j]? = some ("sheaf:///b.js", "") ∧
          tokens.filter (·.place = 23) =
            [{ place := 23, column := 0, source := i, line := 1, sourceColumn := 0 }] ∧
          tokens.filter (·.place = 28) =
            [{ place := 28, column := 0, source := j, line := 0, sourceColumn := 0 }] := by
  intro s
  have hmembers : ∀ id ∈ oddChunk.modules, oddPage.contains id = true := by decide
  have hheadless : Headless s (bodies (parts s oddOutputs oddChunk.modules)) := by decide
  have hsome : (ofChunk s oddPage oddOutputs oddChunk).script.isSome = true := by decide
  have hbodies : bodies (parts s oddOutputs oddChunk.modules) =
      [(⟨"a\"\n.js"⟩, "one();\ntwo();"), (⟨"b.js"⟩, "three();\n")] := by decide
  obtain ⟨script, hscript⟩ := Option.isSome_iff_exists.1 hsome
  obtain ⟨tokens, hread, -, heach, -⟩ := lines_attributed "main.js" hscript hmembers hheadless
  obtain ⟨-, -, m, i, hm, hsource, hlines⟩ := heach [] _ [_] hbodies
  obtain ⟨-, -, m', j, hm', hsource', hlines'⟩ := heach [_] _ [] hbodies
  have htext : (oddPage.module? ⟨"a\"\n.js"⟩).map Module.text = some "one\ntwo\n" := by decide +kernel
  have htext' : (oddPage.module? ⟨"b.js"⟩).map Module.text = some "" := by decide
  rw [hm, Option.map_some, Option.some.injEq] at htext
  rw [hm', Option.map_some, Option.some.injEq] at htext'
  rw [htext] at hsource hlines
  have hplace : (linesBefore s oddPage [(⟨"a\"\n.js"⟩, "one();\ntwo();")]).length = 25 := by
    decide
  rw [htext'] at hsource' hlines'
  rw [hplace] at hlines'
  exact ⟨hmembers, hheadless, script, tokens, i, j, hscript, hread, hsource, hsource',
    hlines 1 (by decide), hlines' 2 (by decide)⟩

end ChunkText

end Bindery
