import Bindery.Json.Parser
import Bindery.Text.Blank
import Bindery.Text.Hex
import Bindery.Profile.Mode

/-!
# Settings from the environment

A variable whose name begins with a reserved word sets one value: the rest of the name, in lower
case, is cut into keys at double underscores. The value is read as a truth value, a number, a
quoted text, a list or a map if it has such a form, and as the plain text otherwise.
-/

namespace Bindery.Config

/-- The word before the names of settings; case does not matter. -/
def variableMark : String := "SHEAF_"

namespace Loose

/-- Blanks between the parts of a value. -/
def isSpace (c : Char) : Bool :=
  c = ' ' || c = '\t' || c = '\n' || c = '\r' || c = '\x0c'

def skipSpace (cs : List Char) : List Char := cs.dropWhile isSpace

/-- Characters that end an unquoted value. -/
def isSeparator (c : Char) : Bool :=
  c = ',' || c = '\x7b' || c = '\x7d' || c = '[' || c = ']'

/-- The number that digits with an optional plus sign stand for. -/
def wholeNumber? (cs : List Char) : Option Nat :=
  let ds := match cs with
    | '+' :: r => r
    | _ => cs
  if !ds.isEmpty && ds.all Char.isDigit then some (Json.digitsValue ds) else none

/-- A number with a point: digits on at least one side of it and possibly an exponent. -/
def pointNumber? (cs : List Char) : Option String :=
  let (sign, r) := match cs with
    | '-' :: r => (['-'], r)
    | '+' :: r => ([], r)
    | _ => ([], cs)
  let whole := r.takeWhile Char.isDigit
  match r.dropWhile Char.isDigit with
  | '.' :: q =>
    let fraction := q.takeWhile Char.isDigit
    let exponent := match q.dropWhile Char.isDigit with
      | [] => some []
      | e :: p =>
        if e = 'e' || e = 'E' then
          let (neg, ds) := match p with
            | '-' :: ds => (['-'], ds)
            | '+' :: ds => ([], ds)
            | _ => ([], p)
          if !ds.isEmpty && ds.all Char.isDigit then some ('e' :: neg ++ ds) else none
        else none
    match exponent with
    | some e =>
      if whole.isEmpty && fraction.isEmpty then none
      else
        let zero (ds : List Char) := if ds.isEmpty then ['0'] else ds
        some (String.ofList (sign ++ zero (whole.dropWhile (· = '0')) ++ '.' :: zero fraction ++ e))
    | none => none
  | _ => none

/-- An unquoted value. -/
def plain (cs : List Char) : Json :=
  let text := Text.trim (String.ofList cs)
  let cs := text.toList
  match if cs.contains '.' then pointNumber? cs else none with
  | some t => .decimal t
  | none =>
    match wholeNumber? cs with
    | some n => if n < 18446744073709551616 then .int n else .str text
    | none =>
      match cs with
      | '-' :: ds =>
        if !ds.isEmpty && ds.all Char.isDigit && Json.digitsValue ds ≤ 9223372036854775808 then
          .int (-(Json.digitsValue ds : Int))
        else .str text
      | _ => .str text

/-- The text behind an opening quote, with the usual escapes. -/
def quoted? (fuel : Nat) (done : List Char) (cs : List Char) : Option (String × List Char) :=
  match fuel, cs with
  | 0, _ => none
  | _, [] => none
  | _ + 1, '"' :: r => some (String.ofList done.reverse, r)
  | fuel + 1, '\\' :: c :: r =>
    match c with
    | 'b' => quoted? fuel ('\x08' :: done) r
    | 'f' => quoted? fuel ('\x0c' :: done) r
    | 'n' => quoted? fuel ('\n' :: done) r
    | 'r' => quoted? fuel ('\r' :: done) r
    | 't' => quoted? fuel ('\t' :: done) r
    | '"' => quoted? fuel ('"' :: done) r
    | '\\' => quoted? fuel ('\\' :: done) r
    | _ => if c = 'u' then hexEscape 4 fuel done r else if c = 'U' then hexEscape 8 fuel done r else none
  | fuel + 1, c :: r => quoted? fuel (c :: done) r
where
  /-- A character given by its number. -/
  hexEscape (count fuel : Nat) (done cs : List Char) : Option (String × List Char) :=
    let digits := cs.take count
    if digits.length < count then none
    else
      match digits.foldlM (fun n c => (Text.hexValue? c).map (n * 16 + ·)) 0 with
      | some n =>
        if n < 0xD800 || (0xDFFF < n && n < 0x110000) then
          quoted? fuel (Char.ofNat n :: done) (cs.drop count)
        else none
      | none => none

def isKeyChar (c : Char) : Bool := c.isAlphanum || c = '_' || c = '-'

/-- The key of a member. -/
def key? (cs : List Char) : Option (String × List Char) :=
  match cs with
  | '"' :: r => quoted? (r.length + 1) [] r
  | _ =>
    match cs.takeWhile isKeyChar with
    | [] => none
    | k => some (String.ofList k, cs.dropWhile isKeyChar)

mutual

/-- A value, with blanks around it, at the start of a text. -/
def value? : (fuel : Nat) → List Char → Option (Json × List Char)
  | 0, _ => none
  | fuel + 1, cs =>
    let found : Option (Json × List Char) := match skipSpace cs with
      | 't' :: 'r' :: 'u' :: 'e' :: r => some (.bool true, r)
      | 'f' :: 'a' :: 'l' :: 's' :: 'e' :: r => some (.bool false, r)
      | '\x7b' :: r => members? fuel [] r
      | '[' :: r => items? fuel [] r
      | '"' :: r => (quoted? (r.length + 1) [] r).map fun (s, q) => (.str s, q)
      | q => some (plain (q.takeWhile (!isSeparator ·)), q.dropWhile (!isSeparator ·))
    found.map fun (v, r) => (v, skipSpace r)

/-- The items of a list up to its closing bracket. -/
def items? : (fuel : Nat) → List Json → List Char → Option (Json × List Char)
  | 0, _, _ => none
  | fuel + 1, done, cs =>
    match cs with
    | ']' :: r => some (.arr done.reverse, r)
    | _ =>
      match value? fuel cs with
      | some (v, ',' :: r) => items? fuel (v :: done) r
      | some (v, ']' :: r) => some (.arr (v :: done).reverse, r)
      | _ => none

/-- The members of a map up to its closing brace. -/
def members? : (fuel : Nat) → List (String × Json) → List Char → Option (Json × List Char)
  | 0, _, _ => none
  | fuel + 1, done, cs =>
    match cs with
    | '\x7d' :: r => some (.obj done.reverse, r)
    | _ =>
      match key? (skipSpace cs) with
      | none => none
      | some (k, r) =>
        match skipSpace r with
        | '=' :: q =>
          match value? fuel q with
          | some (v, ',' :: r) => members? fuel ((k, v) :: done) r
          | some (v, '\x7d' :: r) => some (.obj ((k, v) :: done).reverse, r)
          | _ => none
        | _ => none

end

/-- The value that a text stands for. -/
def value (text : String) : Json :=
  let cs := text.toList
  match value? (2 * cs.length + 2) cs with
  | some (v, []) => v.sortKeys
  | _ => .str text

end Loose

mutual

/-- Puts one value over another: objects are merged member by member, anything else is
replaced. -/
def mergeJson : (lower upper : Json) → Json
  | .obj a, .obj b => .obj (mergeMembers a b)
  | _, v => v

def mergeMembers (lower : List (String × Json)) : List (String × Json) → List (String × Json)
  | [] => lower
  | (k, v) :: r =>
    let merged := match lower.lookup k with
      | some old => mergeJson old v
      | none => v
    mergeMembers (Json.insertKey k merged lower) r

end

/-- A value below some keys; an empty key ends them. -/
def nest (v : Json) : List String → Json
  | [] => v
  | k :: r => if k = "" then v else .obj [(k, nest v r)]

/-- Cuts a text at every occurrence of two underscores and at every point. -/
def splitKeys (done : List Char) : List Char → List String
  | [] => [String.ofList done.reverse]
  | '_' :: '_' :: r => String.ofList done.reverse :: splitKeys [] r
  | c :: r => if c = '.' then String.ofList done.reverse :: splitKeys [] r else splitKeys (c :: done) r

/-- The setting that a variable makes, if its name says so. -/
def variableSetting? (v : String × String) : Option Json :=
  let name := (Mode.lower (Text.trim v.1)).toList
  let mark := (Mode.lower variableMark).toList
  let key := name.drop mark.length
  if mark.isPrefixOf name && !(key.all Text.isBlank) then
    some (nest (Loose.value v.2) (splitKeys [] key))
  else none

/-- The settings that variables make. -/
def environmentSettings (vars : List (String × String)) : Json :=
  (vars.filterMap variableSetting?).foldl mergeJson (.obj [])

end Bindery.Config
