/-!
# Variable-length numbers

A whole number is written in groups of five bits, the lowest first, each as one of 64 characters.
The lowest bit of the number that is cut up says whether it is negative; a group that is not the
last one has its sixth bit set.
-/

namespace Bindery.Text.Vlq

/-- The 64 characters in the order of their values. -/
def alphabet : List Char :=
  "ABCDEFGHIJKLMNOPQRSTUVWXYZabcdefghijklmnopqrstuvwxyz0123456789+/".toList

/-- The character of a group. -/
def digit (n : Nat) : Char := alphabet.getD n 'A'

/-- The groups of a natural number. -/
def groups (n : Nat) : List Nat :=
  if n < 32 then [n] else (n % 32 + 32) :: groups (n / 32)
termination_by n
decreasing_by omega

/-- The natural number whose lowest bit is the sign. -/
def signed (i : Int) : Nat := if i < 0 then 2 * i.natAbs + 1 else 2 * i.natAbs

/-- The written form of a number. -/
def encode (i : Int) : List Char := (groups (signed i)).map digit

end Bindery.Text.Vlq
