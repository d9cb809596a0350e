import Bindery.Number.Ratio

/-!
# Sizes and times as they are shown
-/

namespace Bindery.Measure

/-- The units of sizes, each a thousand and twenty-four times the one before. -/
def sizeUnits : List String := ["KB", "MB", "GB"]

/-- A size in the largest unit of which there is at least one. Sizes that are below the first unit
have no text here. -/
def inLargestUnit? (size : Ratio) : List String → Option String
  | [] => none
  | unit :: r =>
    let part := size.divNat 1024 (by decide)
    if size.atLeast 1024 then
      (inLargestUnit? part r).or (some (part.hundredths ++ " " ++ unit))
    else none

/-- A count of bytes. -/
def size (bytes : Nat) : String :=
  (inLargestUnit? (Ratio.ofNat bytes).stored sizeUnits).getD (toString bytes ++ " B")

/-- A span of time given in milliseconds. -/
def duration (ms : Nat) : String :=
  if ms < 1000 then toString ms ++ "ms"
  else if ms < 60000 then
    let part : Ratio := ⟨ms % 1000, 1000, by decide⟩
    (part.stored.addNat (ms / 1000)).stored.hundredths ++ "s"
  else
    let seconds := ms / 1000
    toString (seconds / 60) ++ "m " ++ toString (seconds % 60) ++ "s"

end Bindery.Measure
