import Bindery.Pattern.Basic

/-!
# Searching a text

Positions of a text of `n` characters are `0` to `n`. A set of positions is a list of `n + 1`
marks, and an expression moves marks: `reach e m` marks the positions where a match of `e` can end
that starts at a position marked in `m`. No choice is ever taken back, so the work is bounded by
the product of pattern and text.
-/

namespace Bindery.Pattern

open Unicode (Ranges)

/-- A character counted as part of a word. -/
def isWordChar (unicode : Bool) (c : Char) : Bool :=
  if unicode then Unicode.isWord c else c.isAlphanum || c = '_'

/-- Whether the condition holds between two characters, either of which may be missing. -/
def Look.holds (before after : Option Char) : Look → Bool
  | .textStart => before.isNone
  | .textEnd => after.isNone
  | .lineStart => before.isNone || before = some '\n'
  | .lineEnd => after.isNone || after = some '\n'
  | .returnLineStart =>
    before.isNone || before = some '\n' || (before = some '\r' && after ≠ some '\n')
  | .returnLineEnd =>
    after.isNone || after = some '\r' || (after = some '\n' && before ≠ some '\r')
  | .wordBoundary u => before.any (isWordChar u) != after.any (isWordChar u)
  | .notWordBoundary u => before.any (isWordChar u) == after.any (isWordChar u)
  | .wordStart u => !before.any (isWordChar u) && after.any (isWordChar u)
  | .wordEnd u => before.any (isWordChar u) && !after.any (isWordChar u)
  | .wordStartHalf u => !before.any (isWordChar u)
  | .wordEndHalf u => !after.any (isWordChar u)

/-- Marks the positions of a text where a condition holds. -/
def marksOf (l : Look) (before : Option Char) : List Char → List Bool
  | [] => [l.holds before none]
  | c :: r => l.holds before (some c) :: marksOf l (some c) r

/-- Marks in either of two sets of positions. -/
def either (a b : List Bool) : List Bool := List.zipWith (· || ·) a b

/-- Applies `f` the given number of times, or until no mark is left. -/
def times (f : List Bool → List Bool) : Nat → List Bool → List Bool
  | 0, m => m
  | n + 1, m => if m.any id then times f n (f m) else m

/-- Applies `f` up to the given number of times and keeps all marks met, stopping when nothing is
added. -/
def grow (f : List Bool → List Bool) : Nat → List Bool → List Bool
  | 0, m => m
  | n + 1, m =>
    let next := either m (f m)
    if next = m then m else grow f n next

/-- The positions where a match can end that starts at a marked position. -/
def reach (text : List Char) : Expr → List Bool → List Bool
  | .empty, m => m
  | .oneOf set, m => false :: List.zipWith (fun b c => b && set.contains c.toNat) m text
  | .look l, m => List.zipWith (· && ·) m (marksOf l none text)
  | .seq a b, m => reach text b (reach text a m)
  | .alt a b, m => either (reach text a m) (reach text b m)
  | .rep a least most, m =>
    let reps := match most with
      | some k => min (k - least) (text.length + 1)
      | none => text.length + 1
    grow (reach text a) reps (times (reach text a) least m)

/-- Whether the expression matches somewhere in the text. -/
def Expr.isMatch (e : Expr) (text : List Char) : Bool :=
  (reach text e (List.replicate (text.length + 1) true)).any id

end Bindery.Pattern
