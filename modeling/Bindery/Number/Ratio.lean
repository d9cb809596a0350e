/-!
# Ratios and how they are rounded

Sizes and times are shown with two places. A ratio is first brought to the nearest number with 53
significant bits, as it is stored, and that number is then rounded to two places. In both steps a
tie goes to the even neighbour.
-/

namespace Bindery

/-- A quotient of two numbers. -/
structure Ratio where
  num : Nat
  den : Nat
  den_pos : 0 < den

namespace Ratio

def ofNat (n : Nat) : Ratio := ⟨n, 1, Nat.one_pos⟩

/-- The whole number next to a quotient; of two that are equally near the even one. -/
def nearestEven (num den : Nat) : Nat :=
  let below := num / den
  let rest := 2 * (num % den)
  if rest < den then below
  else if den < rest then below + 1
  else below + below % 2

/-- How many significant bits a stored number has. -/
def significantBits : Nat := 53

/-- The nearest number that can be stored. -/
def stored (r : Ratio) : Ratio :=
  let up := significantBits + r.den.log2
  let scaled := r.num * Nat.pow 2 up
  let extra := (scaled / r.den).log2 - (significantBits - 1)
  ⟨nearestEven scaled (r.den * Nat.pow 2 extra) * Nat.pow 2 extra, Nat.pow 2 up, Nat.two_pow_pos up⟩

/-- A ratio with a whole number added to it. -/
def addNat (n : Nat) (r : Ratio) : Ratio := ⟨n * r.den + r.num, r.den, r.den_pos⟩

/-- A part of a ratio. -/
def divNat (r : Ratio) (n : Nat) (h : 0 < n) : Ratio := ⟨r.num, r.den * n, Nat.mul_pos r.den_pos h⟩

/-- Whether a ratio is at least a whole number. -/
def atLeast (r : Ratio) (n : Nat) : Bool := n * r.den ≤ r.num

/-- Two decimal digits. -/
def twoDigits (n : Nat) : String := if n < 10 then "0" ++ toString n else toString n

/-- The text with two places. -/
def hundredths (r : Ratio) : String :=
  let n := nearestEven (r.num * 100) r.den
  toString (n / 100) ++ "." ++ twoDigits (n % 100)

end Ratio

end Bindery
