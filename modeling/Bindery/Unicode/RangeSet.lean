import Bindery.Unicode.CaseFold

/-!
# Operations on sets of code points

Sets are kept as increasing, separated ranges; surrogates are never members.
-/

namespace Bindery.Unicode.Ranges

/-- Joins ranges that overlap or touch; the input is in increasing order of first points. -/
def joinSorted : Ranges → Ranges
  | [] => []
  | (lo, hi) :: r =>
    match joinSorted r with
    | [] => [(lo, hi)]
    | (lo₂, hi₂) :: q =>
      if lo₂ ≤ hi + 1 then (lo, max hi hi₂) :: q else (lo, hi) :: (lo₂, hi₂) :: q

/-- The set of all points of some ranges, given in any order. -/
def ofList (ranges : List (Nat × Nat)) : Ranges :=
  joinSorted (ranges.mergeSort fun a b => a.1 ≤ b.1)

def union (a b : Ranges) : Ranges := ofList (a ++ b)

/-- The gaps between ranges from `start` up to `last`. -/
def gaps (start last : Nat) : Ranges → Ranges
  | [] => if start ≤ last then [(start, last)] else []
  | (lo, hi) :: r =>
    if start < lo then (start, lo - 1) :: gaps (hi + 1) last r else gaps (hi + 1) last r

/-- All characters outside the set. -/
def complement (a : Ranges) : Ranges := gaps 0 0x10FFFF (ofList ((0xD800, 0xDFFF) :: a))

def intersect (a b : Ranges) : Ranges := complement (union (complement a) (complement b))

def difference (a b : Ranges) : Ranges := intersect a (complement b)

def symmetricDifference (a b : Ranges) : Ranges := difference (union a b) (intersect a b)

/-- The set with every case variant of its members. -/
def foldCase (a : Ranges) : Ranges :=
  let touched := foldRuns.flatMap fun (first, count, step, target) =>
    (List.range count).flatMap fun i =>
      (if a.contains (first + i * step) then [first + i * step] else [])
        ++ (if a.contains (target + i * step) then [target + i * step] else [])
  union a ((touched.flatMap caseVariants).map fun n => (n, n))

/-- The set with the other case of its ASCII letters. -/
def foldAsciiCase (a : Ranges) : Ranges :=
  let letters := (List.range 26).flatMap fun i =>
    if a.contains (65 + i) || a.contains (97 + i) then [(65 + i, 65 + i), (97 + i, 97 + i)] else []
  union a letters

/-- No member lies outside of ASCII. -/
def isAscii (a : Ranges) : Bool := a.all fun r => r.2 < 128

end Bindery.Unicode.Ranges
