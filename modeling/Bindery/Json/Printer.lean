import Bindery.Json.Basic
import Bindery.Json.Quoted

/-!
# Written JSON

Two layouts: `compact` has no blanks at all, `pretty` puts each item and member on a line of its
own, indented by two blanks a level, and a blank after the colon. Both keep the order of members.
-/

namespace Bindery.Json

/-- The text between opening and closing bracket of an array or object. -/
def joinWith (separator : String) : List String → String
  | [] => ""
  | [s] => s
  | s :: r => s ++ separator ++ joinWith separator r

mutual

/-- One line without blanks. -/
def compact : Json → String
  | .null => "null"
  | .bool true => "true"
  | .bool false => "false"
  | .int i => toString i
  | .decimal text => text
  | .str s => quote s
  | .arr items => "[" ++ joinWith "," (compactItems items) ++ "]"
  | .obj members => "\x7b" ++ joinWith "," (compactMembers members) ++ "\x7d"

def compactItems : List Json → List String
  | [] => []
  | v :: r => compact v :: compactItems r

def compactMembers : List (String × Json) → List String
  | [] => []
  | (k, v) :: r => (quote k ++ ":" ++ compact v) :: compactMembers r

end

/-- Two blanks a level. -/
def indent (level : Nat) : String := String.ofList (List.replicate (2 * level) ' ')

mutual

/-- One item or member a line, at the given level of indentation. -/
def prettyAt (level : Nat) : Json → String
  | .arr [] => "[]"
  | .arr (v :: r) =>
    "[\n" ++ joinWith ",\n" (prettyItems (level + 1) (v :: r)) ++ "\n" ++ indent level ++ "]"
  | .obj [] => "\x7b\x7d"
  | .obj (m :: r) =>
    "\x7b\n" ++ joinWith ",\n" (prettyMembers (level + 1) (m :: r)) ++ "\n" ++ indent level
      ++ "\x7d"
  | .null => "null"
  | .bool true => "true"
  | .bool false => "false"
  | .int i => toString i
  | .decimal text => text
  | .str s => quote s

def prettyItems (level : Nat) : List Json → List String
  | [] => []
  | v :: r => (indent level ++ prettyAt level v) :: prettyItems level r

def prettyMembers (level : Nat) : List (String × Json) → List String
  | [] => []
  | (k, v) :: r => (indent level ++ quote k ++ ": " ++ prettyAt level v) :: prettyMembers level r

end

/-- The layout over several lines, without a final line feed. -/
def pretty (v : Json) : String := prettyAt 0 v

end Bindery.Json
