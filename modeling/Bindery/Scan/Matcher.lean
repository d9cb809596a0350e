import Bindery.Text.Blank
import Bindery.Unicode.Property

/-!
# Matchers

A matcher lists the places where a match that starts at a given place can end, the preferred one
first. Sequence, choice and repetition keep the order of preference of their parts, so the first
place listed is the one that a search from left to right reports.
-/

namespace Bindery.Scan

/-- A place in a text. -/
structure Cursor where
  /-- The character before the place. -/
  before : Option Char
  /-- The text behind the place. -/
  rest : List Char
  /-- How many characters lie before the place. -/
  index : Nat
  /-- Where the captured text begins, and the text. -/
  captured : Option (Nat × List Char) := none

/-- The places where a match can end, the preferred one first. -/
abbrev Matcher := Cursor → List Cursor

/-- The place one character further on. -/
def Cursor.after (c : Cursor) (ch : Char) (rest : List Char) : Cursor :=
  { c with before := some ch, rest := rest, index := c.index + 1 }

/-- One character of a class. -/
def oneOf (p : Char → Bool) : Matcher := fun c =>
  match c.rest with
  | ch :: r => if p ch then [c.after ch r] else []
  | [] => []

/-- A fixed text. -/
def word : List Char → Matcher
  | [], c => [c]
  | w :: ws, c =>
    match c.rest with
    | ch :: r => if ch = w then word ws (c.after ch r) else []
    | [] => []

/-- The places behind each start of `rest` whose characters are all in the class, the furthest
first. `done` holds the places before. -/
def runEnds (p : Char → Bool) (c : Cursor) (done : List Cursor) : List Char → List Cursor
  | [] => c :: done
  | ch :: r => if p ch then runEnds p (c.after ch r) (c :: done) r else c :: done

/-- Characters of a class, as many as possible, possibly none. -/
def run (p : Char → Bool) : Matcher := fun c => runEnds p c [] c.rest

/-- One match behind another. -/
def andThen (m n : Matcher) : Matcher := fun c => (m c).flatMap n

/-- Either match, the first one preferred. -/
def orElse (m n : Matcher) : Matcher := fun c => m c ++ n c

/-- A match or nothing, the match preferred. -/
def optional (m : Matcher) : Matcher := fun c => m c ++ [c]

/-- Characters of a class, as many as possible, at least one. -/
def run1 (p : Char → Bool) : Matcher := andThen (oneOf p) (run p)

/-- Characters of a class, as few as possible, at least one. -/
def lazyRun1 (p : Char → Bool) : Matcher := fun c => (run1 p c).reverse

/-- All matches in sequence. -/
def inOrder : List Matcher → Matcher
  | [] => fun c => [c]
  | [m] => m
  | m :: r => andThen m (inOrder r)

/-- Any of the words, the earlier ones preferred. -/
def anyWord (words : List String) : Matcher := fun c => words.flatMap fun w => word w.toList c

/-- Matches in a row, as many as possible, at most `n`, possibly none. -/
def repeatUpTo (m : Matcher) : Nat → Matcher
  | 0 => fun c => [c]
  | n + 1 => fun c => (m c).flatMap (repeatUpTo m n) ++ [c]

/-- Matches in a row, as many as possible, at least one. Each must consume something. -/
def repeat1 (m : Matcher) : Matcher := fun c => (m c).flatMap (repeatUpTo m c.rest.length)

/-- A match whose text is captured. -/
def capture (m : Matcher) : Matcher := fun c =>
  (m c).map fun e => { e with captured := some (c.index, c.rest.take (e.index - c.index)) }

/-- Nothing, at the start of a line. -/
def lineStart : Matcher := fun c => if c.before = none || c.before = some '\n' then [c] else []

/-- Nothing, between a word character and something else. -/
def wordEdge : Matcher := fun c =>
  if c.before.any Unicode.isWord != c.rest.head?.any Unicode.isWord then [c] else []

/-- Blanks, possibly none. -/
def blanks : Matcher := run Text.isBlank

/-- At least one blank. -/
def blanks1 : Matcher := run1 Text.isBlank

/-- A match found in a text: its first place, the place behind it, what was captured. -/
structure Found where
  start : Nat
  stop : Nat
  captured : Option (Nat × List Char)

/-- The matches in a text from left to right. Each begins at the first place where there is one
behind the match before, and ends at the preferred place. `skip` counts the characters that the
match before still covers; matches are put before `done`. -/
def findFrom (m : Matcher) (before : Option Char) (index skip : Nat) (done : List Found) :
    List Char → List Found
  | [] => done.reverse
  | ch :: r =>
    match skip with
    | k + 1 => findFrom m (some ch) (index + 1) k done r
    | 0 =>
      match (m { before := before, rest := ch :: r, index := index }).head? with
      | some e =>
        let found := { start := index, stop := e.index, captured := e.captured : Found }
        findFrom m (some ch) (index + 1) (e.index - index - 1) (found :: done) r
      | none => findFrom m (some ch) (index + 1) 0 done r

/-- The matches of a matcher that never matches the empty text. -/
def findAll (m : Matcher) (text : List Char) : List Found := findFrom m none 0 0 [] text

/-- Whether there is a match anywhere. -/
def occurs (m : Matcher) (before : Option Char) : List Char → Bool
  | [] => false
  | ch :: r =>
    if (m { before := before, rest := ch :: r, index := 0 }).isEmpty then occurs m (some ch) r
    else true

end Bindery.Scan
