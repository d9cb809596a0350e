import Bindery.Json.Parser

/-!
# Passing over JSON

A value that nothing asks for is passed over. It has to follow the grammar, but its texts may be
malformed, its numbers may be of any size and it may nest to any depth. A text is given with a mark
in the place of each malformed stretch.
-/

namespace Bindery.Json

/-- A text, `none` for each malformed stretch of it. -/
abbrev Marked := List (Option Char)

/-- The text from its first character that is no blank. -/
def skipBlanks (cs : Marked) : Marked := cs.dropWhile fun c => c.any isSpace

/-- The characters before the first malformed stretch. -/
def readable : Marked → List Char
  | some c :: r => c :: readable r
  | _ => []

/-- What a reader takes off the start of a text. It sees no malformed stretch. -/
def take? {α : Type} (reader : List Char → Option (α × List Char)) (cs : Marked) :
    Option (α × Marked) :=
  let text := readable cs
  (reader text).map fun (a, r) => (a, cs.drop (text.length - r.length))

/-- Takes a fixed word off the start of a text. -/
def skipWord? (word : List Char) (cs : Marked) : Option Marked :=
  if (word.map some).isPrefixOf cs then some (cs.drop word.length) else none

/-- Passes over a text up to its closing quote. Escapes are checked for their form only. -/
def skipText? : Marked → Option Marked
  | [] => none
  | some '"' :: r => some r
  | some '\\' :: some 'u' :: some a :: some b :: some c :: some d :: r =>
    if (hexUnit? a b c d).isSome then skipText? r else none
  | some '\\' :: some c :: r =>
    if ['"', '\\', '/', 'b', 'f', 'n', 'r', 't'].contains c then skipText? r else none
  | some c :: r => if c = '\\' || c.toNat < 32 then none else skipText? r
  | none :: r => skipText? r

/-- Passes over an unsigned number. -/
def skipNumber? (cs : Marked) : Option Marked := (take? numeral? cs).map (·.2)

mutual

/-- Passes over a value. Every step uses one unit of `fuel`. -/
def skipValue? : (fuel : Nat) → Marked → Option Marked
  | 0, _ => none
  | fuel + 1, cs =>
    match skipBlanks cs with
    | some 'n' :: r => skipWord? ['u', 'l', 'l'] r
    | some 't' :: r => skipWord? ['r', 'u', 'e'] r
    | some 'f' :: r => skipWord? ['a', 'l', 's', 'e'] r
    | some '"' :: r => skipText? r
    | some '[' :: r =>
      match skipBlanks r with
      | some ']' :: q => some q
      | q => skipItems? fuel q
    | some '\x7b' :: r =>
      match skipBlanks r with
      | some '\x7d' :: q => some q
      | q => skipMembers? fuel q
    | some '-' :: r => skipNumber? r
    | cs => skipNumber? cs

/-- Passes over the items of an array up to its closing bracket. -/
def skipItems? : (fuel : Nat) → Marked → Option Marked
  | 0, _ => none
  | fuel + 1, cs =>
    match skipValue? fuel cs with
    | none => none
    | some r =>
      match skipBlanks r with
      | some ',' :: q => skipItems? fuel q
      | some ']' :: q => some q
      | _ => none

/-- Passes over the members of an object up to its closing brace. -/
def skipMembers? : (fuel : Nat) → Marked → Option Marked
  | 0, _ => none
  | fuel + 1, cs =>
    match skipBlanks cs with
    | some '"' :: r =>
      match skipText? r with
      | none => none
      | some r =>
        match skipBlanks r with
        | some ':' :: r =>
          match skipValue? fuel r with
          | none => none
          | some r =>
            match skipBlanks r with
            | some ',' :: q => skipMembers? fuel q
            | some '\x7d' :: q => some q
            | _ => none
        | _ => none
    | _ => none

end

end Bindery.Json
