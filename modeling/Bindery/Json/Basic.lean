/-!
# JSON values

A JSON value keeps its object members in the order in which they were written. A number that is
not an integer keeps its text.
-/

namespace Bindery

/-- A JSON value. -/
inductive Json where
  | null
  | bool (b : Bool)
  | int (i : Int)
  | decimal (text : String)
  | str (s : String)
  | arr (items : List Json)
  | obj (members : List (String × Json))
  deriving Inhabited, Repr

namespace Json

mutual

/-- Structural equality: members are compared in order. -/
def beq : Json → Json → Bool
  | .null, .null => true
  | .bool a, .bool b => a == b
  | .int a, .int b => a == b
  | .decimal a, .decimal b => a == b
  | .str a, .str b => a == b
  | .arr a, .arr b => beqItems a b
  | .obj a, .obj b => beqMembers a b
  | _, _ => false

def beqItems : List Json → List Json → Bool
  | [], [] => true
  | a :: r, b :: q => beq a b && beqItems r q
  | _, _ => false

def beqMembers : List (String × Json) → List (String × Json) → Bool
  | [], [] => true
  | (k, a) :: r, (l, b) :: q => k == l && beq a b && beqMembers r q
  | _, _ => false

end

instance : BEq Json := ⟨beq⟩

/-- Adds a member in key order; a member of the same key is replaced. -/
def insertKey (key : String) (value : Json) : List (String × Json) → List (String × Json)
  | [] => [(key, value)]
  | (k, v) :: r =>
    if key < k then (key, value) :: (k, v) :: r
    else if key = k then (key, value) :: r
    else (k, v) :: insertKey key value r

mutual

/-- The value with the members of every object in key order; of equal keys the last is kept. -/
def sortKeys : Json → Json
  | .arr items => .arr (sortItems items)
  | .obj members => .obj (sortMembers [] members)
  | v => v

def sortItems : List Json → List Json
  | [] => []
  | v :: r => sortKeys v :: sortItems r

def sortMembers (done : List (String × Json)) : List (String × Json) → List (String × Json)
  | [] => done
  | (k, v) :: r => sortMembers (insertKey k (sortKeys v) done) r

end

/-- The value of a member; of equal keys the last counts. -/
def get? (key : String) : Json → Option Json
  | .obj members => members.reverse.lookup key
  | _ => none

/-- The text of a string value. -/
def str? : Json → Option String
  | .str s => some s
  | _ => none

/-- Absent and `null` members read alike. -/
def member? (key : String) (v : Json) : Option Json :=
  match v.get? key with
  | some .null => none
  | r => r

end Json

end Bindery
