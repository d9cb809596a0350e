import Bindery.Json.Basic
import Bindery.Json.Quoted

/-!
# Reading JSON

A reader for the strict grammar: no comments, no trailing commas, no leading zeros, nothing but
blanks after the value. Values may nest at most 127 deep.
-/

namespace Bindery.Json

/-- The four blanks of the grammar. -/
def isSpace (c : Char) : Bool := c = ' ' || c = '\n' || c = '\t' || c = '\r'

/-- The text from its first character that is no blank. -/
def skipSpace (cs : List Char) : List Char := cs.dropWhile isSpace

/-- The decimal digits at the start of a text, and the rest. -/
def spanDigits (cs : List Char) : List Char × List Char := cs.span Char.isDigit

/-- The number that decimal digits stand for. -/
def digitsValue (cs : List Char) : Nat :=
  cs.foldl (fun n c => n * 10 + (c.toNat - 48)) 0

/-- The fraction at the start of a text, possibly none. A point without a digit is refused. -/
def fraction? : List Char → Option (List Char × List Char)
  | '.' :: r =>
    match spanDigits r with
    | ([], _) => none
    | (ds, q) => some ('.' :: ds, q)
  | cs => some ([], cs)

/-- The exponent at the start of a text, possibly none. -/
def exponent? : List Char → Option (List Char × List Char)
  | c :: r =>
    if c = 'e' || c = 'E' then
      let (sign, q) := match r with
        | '+' :: q => ([], q)
        | '-' :: q => (['-'], q)
        | _ => ([], r)
      match spanDigits q with
      | ([], _) => none
      | (ds, q) => some ('e' :: sign ++ ds, q)
    else some ([], c :: r)
  | [] => some ([], [])

/-- The least number that is too large to be stored. -/
def sizeLimit : Nat := Nat.pow 2 1024 - Nat.pow 2 970

/-- Whether digits with a power of ten reach the limit. -/
def reachesLimit (digits : List Char) (power : Int) : Bool :=
  let shown := digits.dropWhile (· = '0')
  let places := power + shown.length
  let n := digitsValue shown
  if shown.isEmpty || places < 308 then false
  else if 310 < places then true
  else if 0 ≤ power then sizeLimit ≤ n * Nat.pow 10 power.toNat
  else sizeLimit * Nat.pow 10 (-power).toNat ≤ n

/-- Whether a number is too large. A fraction has its point, an exponent its mark. -/
def isTooLarge (digits fraction exponent : List Char) : Bool :=
  let power : Int := match exponent.tail with
    | '-' :: ds => -(digitsValue ds : Int)
    | ds => digitsValue ds
  reachesLimit (digits ++ fraction.tail) (power - fraction.tail.length)

/-- The digits, the fraction and the exponent of an unsigned number at the start of a text. -/
def numeral? (cs : List Char) : Option ((List Char × List Char × List Char) × List Char) :=
  match spanDigits cs with
  | ([], _) => none
  | ('0' :: _ :: _, _) => none
  | (ds, r) =>
    match fraction? r with
    | none => none
    | some (frac, r) => (exponent? r).map fun (expo, r) => ((ds, frac, expo), r)

/-- An unsigned number at the start of a text: an integer where it has neither fraction nor
exponent. -/
def number? (negative : Bool) (cs : List Char) : Option (Json × List Char) :=
  match numeral? cs with
  | none => none
  | some ((ds, frac, expo), r) =>
    let n : Int := digitsValue ds
    if isTooLarge ds frac expo then none
    else if frac.isEmpty && expo.isEmpty && (!negative || n != 0) then
      some (.int (if negative then -n else n), r)
    else
      let sign := if negative then ['-'] else []
      some (.decimal (String.ofList (sign ++ ds ++ frac ++ expo)), r)

/-- Takes a fixed word off the start of a text. -/
def word? (word : List Char) (cs : List Char) : Option (List Char) :=
  if word.isPrefixOf cs then some (cs.drop word.length) else none

mutual

/-- A value at the start of a text. Every step uses one unit of `fuel`; `depth` counts the arrays
and objects that may still be opened. -/
def value? : (fuel depth : Nat) → List Char → Option (Json × List Char)
  | 0, _, _ => none
  | fuel + 1, depth, cs =>
    match skipSpace cs with
    | [] => none
    | 'n' :: r => (word? ['u', 'l', 'l'] r).map ((Json.null, ·))
    | 't' :: r => (word? ['r', 'u', 'e'] r).map ((Json.bool true, ·))
    | 'f' :: r => (word? ['a', 'l', 's', 'e'] r).map ((Json.bool false, ·))
    | '"' :: r => (unquoteBody [] r).map fun (s, q) => (Json.str (String.ofList s), q)
    | '[' :: r =>
      match depth with
      | 0 => none
      | depth + 1 =>
        match skipSpace r with
        | ']' :: q => some (.arr [], q)
        | q => items? fuel depth [] q
    | '\x7b' :: r =>
      match depth with
      | 0 => none
      | depth + 1 =>
        match skipSpace r with
        | '\x7d' :: q => some (.obj [], q)
        | q => members? fuel depth [] q
    | '-' :: r => number? true r
    | c :: r => if c.isDigit then number? false (c :: r) else none

/-- The items of an array up to its closing bracket; `done` holds the items before, reversed. -/
def items? : (fuel depth : Nat) → List Json → List Char → Option (Json × List Char)
  | 0, _, _, _ => none
  | fuel + 1, depth, done, cs =>
    match value? fuel depth cs with
    | none => none
    | some (v, r) =>
      match skipSpace r with
      | ',' :: q => items? fuel depth (v :: done) q
      | ']' :: q => some (.arr (v :: done).reverse, q)
      | _ => none

/-- The members of an object up to its closing brace; `done` holds the members before,
reversed. -/
def members? : (fuel depth : Nat) → List (String × Json) → List Char → Option (Json × List Char)
  | 0, _, _, _ => none
  | fuel + 1, depth, done, cs =>
    match unquote? (skipSpace cs) with
    | none => none
    | some (k, r) =>
      match skipSpace r with
      | ':' :: r =>
        match value? fuel depth r with
        | none => none
        | some (v, r) =>
          match skipSpace r with
          | ',' :: q => members? fuel depth ((String.ofList k, v) :: done) q
          | '\x7d' :: q => some (.obj ((String.ofList k, v) :: done).reverse, q)
          | _ => none
      | _ => none

end

/-- The value that a whole text stands for. -/
def parse? (text : String) : Option Json :=
  let cs := text.toList
  match value? (2 * cs.length + 2) 127 cs with
  | some (v, r) => if (skipSpace r).isEmpty then some v else none
  | none => none

end Bindery.Json
