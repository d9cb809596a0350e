import Bindery.Bundle.SourceMap
import Bindery.Proofs.Text.Lines
import Bindery.Proofs.Text.Vlq

/-!
# The tokens of a source map

The written lines of a source map are read as any reader of such maps does it: lines are parted by
semicolons and tokens by commas, and each token tells how far it is from the one before it. What is read
is one token for each line that leads anywhere, at its first column.

* `SourceMap.tokens?` : the tokens that are read.
* `SourceMap.tokens?_mappings` : they are those of the lines that were written.
* `SourceMap.filter_tokensFrom` : the tokens of one line.
-/

namespace Bindery

namespace SourceMap

/-- A place of the script and what it leads to. -/
structure Token where
  /-- The line of the script. -/
  place : Nat
  column : Nat
  source : Nat
  line : Nat
  sourceColumn : Nat
  deriving DecidableEq, Repr

/-! ## Reading -/

/-- A number and a difference to it; nothing comes before zero. -/
def moved? (n : Nat) (difference : Int) : Option Nat := (n + difference).toNat?

/-- The token of a segment: four differences to the token before it. -/
def readSegment? (place : Nat) (before : Token) (cs : List Char) : Option Token :=
  match Text.Vlq.numbers? 1 0 cs with
  | some [column, source, line, sourceColumn] => do
    let column ← moved? before.column column
    let source ← moved? before.source source
    let line ← moved? before.line line
    let sourceColumn ← moved? before.sourceColumn sourceColumn
    return { place, column, source, line, sourceColumn }
  | _ => none

/-- The tokens of the segments of one line. -/
def readSegments? (place : Nat) (before : Token) : List (List Char) → Option (List Token)
  | [] => some []
  | cs :: r => do
    let t ← readSegment? place before cs
    let later ← readSegments? place t r
    return t :: later

/-- The tokens of lines. Columns begin anew with every line, and everything else goes on. -/
def readLines? (place : Nat) (before : Token) : List (List Char) → Option (List Token)
  | [] => some []
  | cs :: r => do
    let segments := if cs = [] then [] else cs.splitOn ','
    let here ← readSegments? place { before with column := 0 } segments
    let later ← readLines? (place + 1) (here.getLast?.getD before) r
    return here ++ later

/-- The tokens of written lines. -/
def tokens? (mappings : String) : Option (List Token) :=
  readLines? 0 ⟨0, 0, 0, 0, 0⟩ (mappings.toList.splitOn ';')

/-! ## What was written -/

variable {before target : SourceLine} {t : Token} {ls : List (Option SourceLine)}

/-- A line that leads somewhere does so from its first column to the first column of a line. -/
def Token.ofLine (place : Nat) (target : SourceLine) : Token :=
  ⟨place, 0, target.source, target.line, 0⟩

/-- The tokens that lines stand for. -/
def tokensFrom (place : Nat) : List (Option SourceLine) → List Token
  | [] => []
  | none :: r => tokensFrom (place + 1) r
  | some target :: r => .ofLine place target :: tokensFrom (place + 1) r

/-- What the next segment is told against. -/
structure Token.Stands (t : Token) (before : SourceLine) : Prop where
  source : t.source = before.source
  line : t.line = before.line
  sourceColumn : t.sourceColumn = 0

theorem Token.stands_ofLine (place : Nat) (target : SourceLine) :
    (Token.ofLine place target).Stands target := ⟨rfl, rfl, rfl⟩

theorem moved?_sub (n m : Nat) : moved? n (m - n : Int) = some m := by
  have hsum : (n : Int) + (m - n) = m := by omega
  rw [moved?, hsum]
  rfl

theorem readSegment?_segment (place : Nat) (ht : t.Stands before) (hcolumn : t.column = 0)
    (target : SourceLine) :
    readSegment? place t (segment before target) = some (.ofLine place target) := by
  have hnumbers : Text.Vlq.numbers? 1 0 (segment before target) =
      some [0, (target.source : Int) - before.source, (target.line : Int) - before.line, 0] := by
    have hend := Text.Vlq.numbers?_encode 0 []
    rw [List.append_nil] at hend
    simp only [segment, List.append_assoc, Text.Vlq.numbers?_encode, hend]
    rfl
  have hzero : moved? 0 0 = some 0 := rfl
  rw [readSegment?, hnumbers]
  simp only [hcolumn, ht.source, ht.line, ht.sourceColumn, hzero, moved?_sub]
  rfl

theorem notMem_segment {c : Char} (hc : c ∉ Text.Vlq.alphabet) (before target : SourceLine) :
    c ∉ segment before target := by
  have hnone : ∀ i, c ∉ Text.Vlq.encode i :=
    fun i hmem => hc (Text.Vlq.mem_alphabet_of_mem_encode hmem)
  simp [segment, hnone]

theorem splitOn_segment {c : Char} (hc : c ∉ Text.Vlq.alphabet) (before target : SourceLine) :
    (segment before target).splitOn c = [segment before target] :=
  Text.splitOn_of_notMem (notMem_segment hc before target)

theorem segment_ne_nil (before target : SourceLine) : segment before target ≠ [] := by
  have hfirst : Text.Vlq.encode 0 = ['A'] := by
    rw [Text.Vlq.encode, Text.Vlq.signed, Text.Vlq.groups]
    rfl
  simp [segment, hfirst]

/-! ## Reading what was written -/

/-- A line of one segment. -/
theorem readLines?_segment (place : Nat) (ht : t.Stands before) (target : SourceLine)
    (r : List (List Char)) :
    readLines? place t (segment before target :: r) =
      (readLines? (place + 1) (.ofLine place target) r).map (.ofLine place target :: ·) := by
  have hstands : Token.Stands { t with column := 0 } before := ⟨ht.source, ht.line, ht.sourceColumn⟩
  have hread := readSegment?_segment place hstands rfl target
  have hcomma : ',' ∉ Text.Vlq.alphabet := by decide
  simp only [readLines?, if_neg (segment_ne_nil before target), splitOn_segment hcomma,
    readSegments?, hread, Option.bind_eq_bind, Option.bind_some, pure, List.getLast?_singleton,
    Option.getD_some, List.singleton_append]
  exact (Option.map_eq_bind ..).symm

/-- Lines of no segment. -/
theorem readLines?_replicate (place pending : Nat) (t : Token) (cs : List Char) :
    readLines? place t ((List.replicate pending ';' ++ cs).splitOn ';') =
      readLines? (place + pending) t (cs.splitOn ';') := by
  induction pending generalizing place with
  | zero => rfl
  | succ pending ih =>
    have hsplit : (List.replicate (pending + 1) ';' ++ cs).splitOn ';' =
        [] :: (List.replicate pending ';' ++ cs).splitOn ';' :=
      List.splitOn_append_cons_self [] _
    have hstep : ∀ rest, readLines? place t ([] :: rest) = readLines? (place + 1) t rest := by
      intro rest
      simp only [readLines?, if_pos, readSegments?, Option.bind_eq_bind, Option.bind_some, pure,
        List.getLast?_nil, Option.getD_none, List.nil_append]
      exact Option.bind_fun_some _
    rw [hsplit, hstep, ih, Nat.add_right_comm, Nat.add_assoc]

/-- A line end that is pending is written before anything else. -/
theorem mappingChars_succ (before : SourceLine) (pending : Nat) (ls : List (Option SourceLine)) :
    mappingChars before (pending + 1) ls = [] ∧ mappingChars before pending ls = [] ∨
      mappingChars before (pending + 1) ls = ';' :: mappingChars before pending ls := by
  induction ls generalizing pending with
  | nil => exact .inl ⟨rfl, rfl⟩
  | cons line r ih =>
    cases line with
    | none => exact ih (pending + 1)
    | some target => exact .inr rfl

/-- Written lines are read back. The induction carries what the next segment is told against, and how
many line ends are not written yet. -/
theorem readLines?_mappingChars (before : SourceLine) (pending : Nat) (ls : List (Option SourceLine))
    (place : Nat) (ht : t.Stands before) :
    readLines? place t ((mappingChars before pending ls).splitOn ';') =
      some (tokensFrom (place + pending) ls) := by
  have hsemicolon : ';' ∉ Text.Vlq.alphabet := by decide
  induction ls generalizing before pending place t with
  | nil => rfl
  | cons line r ih =>
    cases line with
    | none =>
      rw [mappingChars, ih before (pending + 1) place ht, tokensFrom, Nat.add_assoc]
    | some target =>
      have hlater := ih target 0 (place + pending + 1) (Token.stands_ofLine (place + pending) target)
      rw [mappingChars, List.append_assoc, readLines?_replicate, tokensFrom]
      rcases mappingChars_succ target 0 r with ⟨hend, hnone⟩ | hmore
      · -- nothing follows that leads anywhere
        rw [hnone] at hlater
        have hlast : some [] = some (tokensFrom (place + pending + 1) r) := hlater
        rw [hend, List.append_nil, splitOn_segment hsemicolon, readLines?_segment _ ht,
          ← Option.some.inj hlast]
        rfl
      · rw [hmore, List.splitOn_append_cons_self, splitOn_segment hsemicolon, List.singleton_append,
          readLines?_segment _ ht, hlater]
        rfl

/-- The tokens that are read are those of the lines. -/
theorem tokens?_mappings (m : SourceMap) : tokens? m.mappings = some (tokensFrom 0 m.lines) := by
  rw [tokens?, mappings, String.toList_ofList]
  exact readLines?_mappingChars ⟨0, 0⟩ 0 m.lines 0 ⟨rfl, rfl, rfl⟩

/-! ## The tokens of one line -/

theorem le_place_of_mem_tokensFrom {place : Nat} (h : t ∈ tokensFrom place ls) : place ≤ t.place := by
  induction ls generalizing place with
  | nil => cases h
  | cons line r ih =>
    cases line with
    | none => exact Nat.le_of_succ_le (ih h)
    | some target =>
      rcases List.mem_cons.1 h with rfl | h
      · exact Nat.le_refl _
      · exact Nat.le_of_succ_le (ih h)

/-- A line has the token of what it leads to, and no other. -/
theorem filter_tokensFrom (place k : Nat) (ls : List (Option SourceLine)) :
    (tokensFrom place ls).filter (·.place = place + k) =
      (ls[k]?.join.map (Token.ofLine (place + k))).toList := by
  induction ls generalizing place k with
  | nil => rfl
  | cons line r ih =>
    have hnone : (tokensFrom (place + 1) r).filter (·.place = place) = [] := by
      rw [List.filter_eq_nil_iff]
      intro t ht
      have hbehind := le_place_of_mem_tokensFrom ht
      simp only [decide_eq_true_eq]
      omega
    cases k with
    | zero =>
      cases line with
      | none => exact hnone
      | some target =>
        have hhere : (Token.ofLine place target).place = place := rfl
        rw [Nat.add_zero, tokensFrom, List.filter_cons_of_pos (by simp [hhere]), hnone]
        rfl
    | succ k =>
      have hrest := ih (place + 1) k
      rw [Nat.add_right_comm, Nat.add_assoc] at hrest
      rw [List.getElem?_cons_succ, ← hrest]
      cases line with
      | none => rfl
      | some target =>
        have hother : (Token.ofLine place target).place ≠ place + (k + 1) := by
          simp [Token.ofLine]
        rw [tokensFrom, List.filter_cons_of_neg (by simpa using hother)]

/-- The tokens of one line of a script. -/
theorem filter_tokens (m : SourceMap) (k : Nat) :
    (tokensFrom 0 m.lines).filter (·.place = k) = (m.lines[k]?.join.map (Token.ofLine k)).toList := by
  have hfilter := filter_tokensFrom 0 k m.lines
  rwa [Nat.zero_add] at hfilter

/-- A token is that of a line. -/
theorem mem_tokensFrom {place : Nat} (h : t ∈ tokensFrom place ls) :
    ∃ k target, ls[k]? = some (some target) ∧ t = .ofLine (place + k) target := by
  induction ls generalizing place with
  | nil => cases h
  | cons line r ih =>
    have hbehind : t ∈ tokensFrom (place + 1) r →
        ∃ k target, (line :: r)[k]? = some (some target) ∧ t = .ofLine (place + k) target := by
      intro hmem
      obtain ⟨k, target, hk, rfl⟩ := ih hmem
      exact ⟨k + 1, target, by simpa using hk, by rw [Nat.add_assoc, Nat.add_comm 1 k]⟩
    cases line with
    | none => exact hbehind h
    | some target =>
      rcases List.mem_cons.1 h with rfl | h
      · exact ⟨0, target, rfl, rfl⟩
      · exact hbehind h

end SourceMap

end Bindery
