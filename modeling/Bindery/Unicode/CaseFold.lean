import Bindery.Unicode.Property

/-!
# Case folding

Two characters differ in case only when they fold to the same character.
-/

namespace Bindery.Unicode

/-- Runs of foldings: the first code point, the number of them, the step, the first target. -/
def foldRuns : List (Nat × Nat × Nat × Nat) :=
  (entries foldings).filterMap fun entry =>
    match entry with
    | [first, count, step, target] => some (first, count, step, target)
    | _ => none

/-- The code point that a code point folds to. -/
def fold (n : Nat) : Nat :=
  match foldRuns.find? fun (first, count, step, _) =>
      first ≤ n && n < first + count * step && (n - first) % step == 0 with
  | some (first, _, _, target) => target + (n - first)
  | none => n

/-- The code points that fold to the same one, the given one first. -/
def caseVariants (n : Nat) : List Nat :=
  let f := fold n
  let sources := foldRuns.filterMap fun (first, count, step, target) =>
    let i := f - target
    if target ≤ f && i % step == 0 && i < count * step then some (first + i) else none
  n :: (f :: sources).filter (· != n)

end Bindery.Unicode
