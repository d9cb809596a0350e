import Bindery.Unicode.RangeSet

/-!
# Patterns

A pattern is a regular expression over characters. `Expr` is its structure after all flags have
been applied: sets of characters, conditions on a position, and the three ways to combine.
-/

namespace Bindery.Pattern

open Unicode (Ranges)

/-- A condition on a position, which consumes no character. Word conditions say whether word
characters are all those of Unicode or the ASCII ones. -/
inductive Look where
  | textStart
  | textEnd
  | lineStart
  | lineEnd
  | returnLineStart
  | returnLineEnd
  | wordBoundary (unicode : Bool)
  | notWordBoundary (unicode : Bool)
  | wordStart (unicode : Bool)
  | wordEnd (unicode : Bool)
  | wordStartHalf (unicode : Bool)
  | wordEndHalf (unicode : Bool)
  deriving Repr, DecidableEq

/-- A regular expression. -/
inductive Expr where
  /-- Matches the empty text. -/
  | empty
  /-- Matches one character of the set. -/
  | oneOf (set : Ranges)
  /-- Matches the empty text where the condition holds. -/
  | look (condition : Look)
  | seq (first second : Expr)
  | alt (first second : Expr)
  /-- At least `least` and, where `most` is given, at most that many repetitions. -/
  | rep (body : Expr) (least : Nat) (most : Option Nat)
  deriving Repr

/-- The room that a compiled expression takes, in bytes, as far as it counts towards the limit
on the size of a pattern. -/
def Expr.weight : Expr → Nat
  | .empty => 0
  | .oneOf set => if set.isAscii then 24 + 8 * (set.length - 1) else 16 + 58 * set.length
  | .look _ => 24
  | .seq a b => a.weight + b.weight
  | .alt a b => a.weight + b.weight + 24
  | .rep a least most => a.weight * max 1 (most.getD (least + 1)) + 24

end Bindery.Pattern
