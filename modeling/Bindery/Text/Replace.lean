/-!
# Replacing stretches of text
-/

namespace Bindery.Text

/-- Replaces every occurrence of a text, from left to right. -/
def replaceAll (part new : List Char) : (fuel : Nat) → List Char → List Char
  | 0, cs => cs
  | _ + 1, [] => []
  | fuel + 1, c :: r =>
    if part.isPrefixOf (c :: r) then new ++ replaceAll part new fuel ((c :: r).drop part.length)
    else c :: replaceAll part new fuel r

/-- Replaces every occurrence of a text that is not empty. -/
def replace (text part new : String) : String :=
  String.ofList (replaceAll part.toList new.toList (text.toList.length + 1) text.toList)

/-- The text behind a beginning. -/
def stripStart? (start cs : List Char) : Option (List Char) :=
  if start.isPrefixOf cs then some (cs.drop start.length) else none

theorem stripStart?_append (start rest : List Char) :
    stripStart? start (start ++ rest) = some rest := by
  simp [stripStart?]

end Bindery.Text
