/-!
# Lines

A line ends at a line feed or at the end of the text; one carriage return before the line feed
belongs to the line end. A text that ends in a line feed has no empty last line.
-/

namespace Bindery.Text

/-- A line without the carriage return of its line end. -/
def dropCarriageReturn (l : List Char) : List Char :=
  if l.getLast? = some '\r' then l.dropLast else l

/-- The lines of a text. Only a terminated line can lose a carriage return. -/
def lines (cs : List Char) : List (List Char) :=
  match (cs.splitOn '\n').reverse with
  | [] => []
  | last :: init =>
    let full := init.reverse.map dropCarriageReturn
    if last.isEmpty then full else full ++ [last]

/-- The lines of a string, as strings. -/
def linesOf (s : String) : List String := (lines s.toList).map String.ofList

/-- Writes every line followed by a line feed. -/
def unlines (ls : List String) : String := String.join (ls.map (· ++ "\n"))

end Bindery.Text
