import Bindery.Unicode.Tables

/-!
# Sets of code points and their names

A set of code points is a list of closed ranges in increasing order. Names of categories, scripts
and properties are compared without regard to case, blanks, hyphens, underscores and a leading
"is".
-/

namespace Bindery.Unicode

/-- Closed ranges of code points, in increasing order. -/
abbrev Ranges := List (Nat × Nat)

/-- Membership in increasing ranges. -/
def Ranges.contains : Ranges → Nat → Bool
  | [], _ => false
  | (lo, hi) :: r, n => if n < lo then false else if n ≤ hi then true else Ranges.contains r n

/-- A decimal number. -/
def decimal (cs : List Char) : Nat := cs.foldl (fun n c => n * 10 + (c.toNat - 48)) 0

/-- The numbers of one entry, which are separated by points. -/
def entryNumbers (entry : List Char) : List Nat := (entry.splitOn '.').map decimal

/-- The numbers of every entry of a table text, which are separated by blanks. -/
def entries (text : String) : List (List Nat) :=
  (text.toList.splitOn ' ').map entryNumbers

/-- The ranges that runs stand for. -/
def decodeRuns (text : String) : Ranges :=
  let step (acc : Nat × Ranges) (entry : List Nat) : Nat × Ranges :=
    match entry with
    | [gap, len] => (acc.1 + gap + len, (acc.1 + gap, acc.1 + gap + len - 1) :: acc.2)
    | [gap] => (acc.1 + gap + 1, (acc.1 + gap, acc.1 + gap) :: acc.2)
    | _ => acc
  ((entries text).foldl step (0, [])).2.reverse

/-- A name as it is compared. -/
def normalName (name : List Char) : List Char :=
  let bare := (name.filter fun c => c != ' ' && c != '_' && c != '-').map Char.toLower
  match bare with
  | ['i', 's', 'c'] => ['i', 's', 'c']
  | 'i' :: 's' :: r => r
  | _ => bare

/-- The ranges of the row that has the name. -/
def rowNamed? (rows : List TableRow) (name : List Char) : Option Ranges :=
  (rows.find? fun row => row.names.any fun n => normalName n.toList == normalName name).map
    fun row => decodeRuns row.runs

/-- The union of the categories with the given short names. -/
def categoryUnion (shortNames : List String) : List Ranges :=
  categoryRows.filterMap fun row =>
    if shortNames.any row.names.contains then some (decodeRuns row.runs) else none

/-- The groups of categories: accepted names and the short names of the members. -/
def categoryGroups : List (List String × List String) := [
  (["L", "Letter"], ["Lu", "Ll", "Lt", "Lm", "Lo"]),
  (["LC", "Cased_Letter"], ["Lu", "Ll", "Lt"]),
  (["M", "Mark", "Combining_Mark"], ["Mn", "Mc", "Me"]),
  (["N", "Number"], ["Nd", "Nl", "No"]),
  (["P", "Punctuation", "punct"], ["Pc", "Pd", "Ps", "Pe", "Pi", "Pf", "Po"]),
  (["S", "Symbol"], ["Sm", "Sc", "Sk", "So"]),
  (["Z", "Separator"], ["Zs", "Zl", "Zp"]),
  (["C", "Other"], ["Cc", "Cf", "Co", "Cn", "Cs"])]

/-- The ranges of a general category or of a group of them. Every code point is in `Any`, the
assigned ones are those outside of `Cn`. -/
def category? (name : List Char) : Option (List Ranges) :=
  let wanted := normalName name
  if wanted = "any".toList then some [[(0, 0x10FFFF)]]
  else if wanted = "ascii".toList then some [[(0, 0x7F)]]
  else if wanted = "assigned".toList then
    some ((categoryRows.filter fun row => !row.names.contains "Cn").map (decodeRuns ·.runs))
  else if wanted = "cs".toList || wanted = "surrogate".toList then some [[]]
  else
    match categoryGroups.find? fun g => g.1.any fun n => normalName n.toList == wanted with
    | some g => some (categoryUnion g.2)
    | none => (rowNamed? categoryRows name).map ([·])

/-- The ranges of a script. -/
def script? (name : List Char) : Option (List Ranges) := (rowNamed? scriptRows name).map ([·])

/-- The ranges of a property that a code point has or has not. -/
def binary? (name : List Char) : Option (List Ranges) := (rowNamed? binaryRows name).map ([·])

/-- Looks a bare name up among properties, categories and scripts. The names `cf`, `sc` and `lc`
mean the categories, not the properties of those names. -/
def named? (name : List Char) : Option (List Ranges) :=
  (binary? name).or ((category? name).or (script? name))

/-- Looks up a name with the value of a property: of the general category, of the script. -/
def valued? (property value : List Char) : Option (List Ranges) :=
  let wanted := normalName property
  if wanted = "gc".toList || wanted = "generalcategory".toList then category? value
  else if ["sc", "script", "scx", "scriptextensions"].any (·.toList == wanted) then script? value
  else none

/-- The decimal digits of all scripts. -/
def digitRanges : Ranges := ((categoryUnion ["Nd"]).head?).getD []

/-- The blanks. -/
def spaceRanges : Ranges :=
  [(9, 13), (32, 32), (0x85, 0x85), (0xA0, 0xA0), (0x1680, 0x1680), (0x2000, 0x200A),
    (0x2028, 0x2029), (0x202F, 0x202F), (0x205F, 0x205F), (0x3000, 0x3000)]

/-- The parts of the set of word characters: letters, marks, digits, connectors, joiners. -/
def wordParts : List Ranges :=
  [[(48, 57), (65, 90), (95, 95), (97, 122), (0x200C, 0x200D)]]
    ++ ((binary? "Alphabetic".toList).getD []) ++ categoryUnion ["Mn", "Mc", "Me", "Nd", "Pc"]

/-- A character that can stand in a word. -/
def isWord (c : Char) : Bool :=
  if c.toNat < 128 then c.isAlphanum || c = '_' else wordParts.any (·.contains c.toNat)

end Bindery.Unicode
