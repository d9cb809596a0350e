import Bindery.Json.Basic

/-!
# Reading typed values

A record is written as an object with its fields by name, or as a list with its fields in order.
Unknown members are ignored. An optional field may be absent or `null`. A word out of a fixed set
may, where a document allows it, also be given by its place in the set.
-/

namespace Bindery.Config

/-- Reads a value of some type; `none` if the value does not fit. -/
abbrev Reader (α : Type) := Json → Option α

/-- The fields of a record by name. -/
abbrev Record := String → Option Json

/-- Whether a name occurs more than once among the members. -/
def isRepeated (members : List (String × Json)) (name : String) : Bool :=
  (members.filter (·.1 == name)).length > 1

/-- The fields of a record whose fields have the given order. -/
def record? (order : List String) : Reader Record
  | .obj members =>
    if order.any (isRepeated members) then none else some fun name => members.lookup name
  | .arr items => if items.length ≤ order.length then some fun name => (order.zip items).lookup name
    else none
  | _ => none

/-- A field that must be there. -/
def Record.required (r : Record) (name : String) (read : Reader α) : Option α := (r name).bind read

/-- A field that may be absent or `null`. -/
def Record.optional (r : Record) (name : String) (read : Reader α) : Option (Option α) :=
  match r name with
  | none => some none
  | some .null => some none
  | some v => (read v).map some

/-- A field that has a value of its own when it is absent. -/
def Record.withDefault (r : Record) (name : String) (default : α) (read : Reader α) : Option α :=
  match r name with
  | none => some default
  | some v => read v

def text : Reader String := Json.str?

def flag : Reader Bool
  | .bool b => some b
  | _ => none

/-- A whole number below a limit. -/
def natural (limit : Nat) : Reader Nat
  | .int (.ofNat n) => if n < limit then some n else none
  | _ => none

/-- A number of 64 bits. -/
def natural64 : Reader Nat := natural 18446744073709551616

/-- A number of 16 bits. -/
def natural16 : Reader Nat := natural 65536

/-- Reads every item of a list. -/
def listOf (read : Reader α) : Reader (List α)
  | .arr items => items.mapM read
  | _ => none

/-- Reads the value of every member of an object. -/
def mapOf (read : Reader α) : Reader (List (String × α))
  | .obj members => members.mapM fun (k, v) => (read v).map (k, ·)
  | _ => none

/-- A word out of a fixed set, which may be wrapped in an object with `null`. -/
def word (byPlace : Bool) (words : List (String × α)) : Reader α
  | .str s => words.lookup s
  | .obj [(s, .null)] => words.lookup s
  | .int (.ofNat n) => if byPlace then (words[n]?).map (·.2) else none
  | _ => none

end Bindery.Config
