/-!
# Totals
-/

namespace Bindery

/-- What all numbers of a list come to. -/
def total : List Nat → Nat
  | [] => 0
  | n :: r => n + total r

end Bindery
