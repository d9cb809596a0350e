import Bindery.Json.Basic
import Bindery.Json.Parser
import Bindery.Text.Hex

/-!
# TOML

A document is read in two steps. `Statement`s are its lines: table headers and assignments. A
`Table` is then built from them, where no key is set twice, no table is declared twice, and a
table written inline is closed. Dates become an object with one reserved member; the result is a
JSON value with its keys in order.
-/

namespace Bindery.Toml

/-- Keys from the outermost table to the innermost. -/
abbrev KeyPath := List String

/-- A line of a document. -/
inductive Statement where
  /-- `[a.b]` -/
  | table (path : KeyPath)
  /-- `[[a.b]]` -/
  | arrayItem (path : KeyPath)
  /-- `a.b = value` -/
  | assign (path : KeyPath) (value : Json)

/-! ## Tables -/

/-- How a table came to be. -/
inductive Origin where
  /-- By a header. -/
  | declared
  /-- On the way to a table that was declared. -/
  | implied
  /-- On the way to a key that was set. -/
  | dotted
  deriving DecidableEq

/-- What a key stands for. -/
inductive Entry where
  /-- A value that takes no further keys. -/
  | value (v : Json)
  | table (origin : Origin) (members : List (String × Entry))
  /-- Tables of one array, the last one first. -/
  | array (items : List (List (String × Entry)))

/-- The members of a table. -/
abbrev Table := List (String × Entry)

/-- Replaces the entry of a key, or adds it at the end. -/
def Table.set (t : Table) (key : String) (e : Entry) : Table :=
  match t with
  | [] => [(key, e)]
  | (k, x) :: r => if k = key then (k, e) :: r else (k, x) :: Table.set r key e

/-- Declares the table at a path, or with `array` a further table of the array at the path.
`body` is put into the declared table. -/
def Table.declare (array : Bool) (body : Table → Option Table) : KeyPath → Table → Option Table
  | [], _ => none
  | [key], t =>
    match t.lookup key with
    | none =>
      (body []).map fun b => t.set key (if array then .array [b] else .table .declared b)
    | some (.table .implied members) =>
      if array then none else (body members).map fun b => t.set key (.table .declared b)
    | some (.array items) =>
      if array then (body []).map fun b => t.set key (.array (b :: items)) else none
    | some _ => none
  | key :: rest, t =>
    match t.lookup key with
    | none => (Table.declare array body rest []).map fun m => t.set key (.table .implied m)
    | some (.table origin members) =>
      (Table.declare array body rest members).map fun m => t.set key (.table origin m)
    | some (.array (last :: before)) =>
      (Table.declare array body rest last).map fun m => t.set key (.array (m :: before))
    | some _ => none

/-- Sets a key that is not set yet. -/
def Table.assign (v : Json) : KeyPath → Table → Option Table
  | [], _ => none
  | [key], t =>
    match t.lookup key with
    | none => some (t.set key (.value v))
    | some _ => none
  | key :: rest, t =>
    match t.lookup key with
    | none => (Table.assign v rest []).map fun m => t.set key (.table .dotted m)
    | some (.table .declared _) => none
    | some (.table origin members) =>
      (Table.assign v rest members).map fun m => t.set key (.table origin m)
    | some _ => none

/-- Sets keys one after the other. -/
def Table.assignAll : List (KeyPath × Json) → Table → Option Table
  | [], t => some t
  | (path, v) :: r, t => (t.assign v path).bind (Table.assignAll r)

mutual

/-- The value that an entry stands for. -/
def Entry.toJson : Entry → Json
  | .value v => v
  | .table _ members => .obj (Entry.membersToJson members)
  | .array items => .arr (Entry.itemsToJson items).reverse

def Entry.membersToJson : List (String × Entry) → List (String × Json)
  | [] => []
  | (k, e) :: r => (k, e.toJson) :: Entry.membersToJson r

def Entry.itemsToJson : List (List (String × Entry)) → List Json
  | [] => []
  | t :: r => .obj (Entry.membersToJson t) :: Entry.itemsToJson r

end

/-- The assignments up to the next header, and the statements from there on. -/
def spanAssignments : List Statement → List (KeyPath × Json) × List Statement
  | .assign path v :: r =>
    let (assigned, rest) := spanAssignments r
    ((path, v) :: assigned, rest)
  | r => ([], r)

/-- The tables that headers declare, each with the assignments behind it. -/
def Table.addSections : (fuel : Nat) → List Statement → Table → Option Table
  | 0, _, _ => none
  | _ + 1, [], t => some t
  | fuel + 1, s :: r, t =>
    let (assigned, rest) := spanAssignments r
    let declared := match s with
      | .table path => Table.declare false (Table.assignAll assigned) path t
      | .arrayItem path => Table.declare true (Table.assignAll assigned) path t
      | .assign path v => (t.assign v path).bind (Table.assignAll assigned)
    declared.bind (Table.addSections fuel rest)

/-- The value of a document. -/
def ofStatements? (statements : List Statement) : Option Json :=
  (Table.addSections (statements.length + 1) statements []).map fun t =>
    (Json.obj (Entry.membersToJson t)).sortKeys

/-! ## Statements -/

def isBlank (c : Char) : Bool := c = ' ' || c = '\t'

def skipBlanks (cs : List Char) : List Char := cs.dropWhile isBlank

/-- Control characters other than the tab cannot stand in texts and comments. -/
def isForbidden (c : Char) : Bool := (c.toNat < 32 && c != '\t') || c.toNat = 127

/-- Drops a comment; the rest begins with a line end or is empty. -/
def skipComment? : List Char → Option (List Char)
  | '#' :: r =>
    let comment := r.takeWhile fun c => c != '\n' && c != '\r'
    if comment.any isForbidden then none
    else some (r.dropWhile fun c => c != '\n' && c != '\r')
  | cs => some cs

/-- Drops one line end. -/
def lineEnd? : List Char → Option (List Char)
  | '\n' :: r => some r
  | '\r' :: '\n' :: r => some r
  | _ => none

/-- Drops blanks, comments and line ends. -/
def skipLines? : (fuel : Nat) → List Char → Option (List Char)
  | 0, _ => none
  | fuel + 1, cs =>
    match skipComment? (skipBlanks cs) with
    | none => none
    | some [] => some []
    | some r =>
      match lineEnd? r with
      | some q => skipLines? fuel q
      | none => if r.head? = some '\r' then none else some r

/-- Drops the rest of a line, which may hold a comment only. -/
def endOfLine? (cs : List Char) : Option (List Char) :=
  match skipComment? (skipBlanks cs) with
  | none => none
  | some [] => some []
  | some r => lineEnd? r

/-- The character that hexadecimal digits name. -/
def hexChar? (digits : List Char) : Option Char := do
  let n ← digits.foldlM (fun n c => (Text.hexValue? c).map (n * 16 + ·)) 0
  if n < 0xD800 || (0xDFFF < n && n < 0x110000) then some (Char.ofNat n) else none

/-- The character behind a backslash. -/
def escape? : List Char → Option (Char × List Char)
  | 'b' :: r => some ('\x08', r)
  | 't' :: r => some ('\t', r)
  | 'n' :: r => some ('\n', r)
  | 'f' :: r => some ('\x0c', r)
  | 'r' :: r => some ('\r', r)
  | '"' :: r => some ('"', r)
  | '\\' :: r => some ('\\', r)
  | 'u' :: a :: b :: c :: d :: r => (hexChar? [a, b, c, d]).map (·, r)
  | 'U' :: a :: b :: c :: d :: e :: f :: g :: h :: r =>
    (hexChar? [a, b, c, d, e, f, g, h]).map (·, r)
  | _ => none

/-- A text on one line up to its closing quote; escapes count where the quote is double. -/
def lineText? (quote : Char) : (fuel : Nat) → (done : List Char) → List Char →
    Option (String × List Char)
  | 0, _, _ => none
  | _ + 1, _, [] => none
  | fuel + 1, done, c :: r =>
    if c = quote then some (String.ofList done.reverse, r)
    else if c = '\\' && quote = '"' then
      match escape? r with
      | some (x, q) => lineText? quote fuel (x :: done) q
      | none => none
    else if isForbidden c then none
    else lineText? quote fuel (c :: done) r

/-- The blanks and line ends behind a backslash at the end of a line. -/
def skipFolded? (cs : List Char) : Option (List Char) :=
  match lineEnd? (skipBlanks cs) with
  | some r => some (r.dropWhile fun c => isBlank c || c = '\n' || c = '\r')
  | none => none

/-- A text over several lines up to three closing quotes, before which two more may stand. -/
def blockText? (quote : Char) : (fuel : Nat) → (done : List Char) → List Char →
    Option (String × List Char)
  | 0, _, _ => none
  | _ + 1, _, [] => none
  | fuel + 1, done, c :: r =>
    if c = quote && (r.take 2).all (· = quote) && (r.take 2).length = 2 then
      let more := ((r.drop 2).takeWhile (· = quote)).length
      let extra := min more 2
      some (String.ofList (done.reverse ++ List.replicate extra quote), r.drop (2 + extra))
    else if c = '\\' && quote = '"' then
      match escape? r with
      | some (x, q) => blockText? quote fuel (x :: done) q
      | none =>
        match skipFolded? r with
        | some q => blockText? quote fuel done q
        | none => none
    else if c = '\n' then blockText? quote fuel ('\n' :: done) r
    else if c = '\r' then
      match r with
      | '\n' :: q => blockText? quote fuel ('\n' :: '\r' :: done) q
      | _ => none
    else if isForbidden c then none
    else blockText? quote fuel (c :: done) r

/-- A quoted text of any form. A line end right behind three opening quotes does not count. -/
def quoted? (cs : List Char) : Option (String × List Char) :=
  let block (quote : Char) (r : List Char) :=
    blockText? quote (r.length + 1) [] ((lineEnd? r).getD r)
  match cs with
  | '"' :: '"' :: '"' :: r => block '"' r
  | '\'' :: '\'' :: '\'' :: r => block '\'' r
  | '"' :: r => lineText? '"' (r.length + 1) [] r
  | '\'' :: r => lineText? '\'' (r.length + 1) [] r
  | _ => none

def isBareKeyChar (c : Char) : Bool := c.isAlphanum || c = '_' || c = '-'

/-- One part of a key. -/
def keyPart? (cs : List Char) : Option (String × List Char) :=
  match cs with
  | '"' :: r => lineText? '"' (r.length + 1) [] r
  | '\'' :: r => lineText? '\'' (r.length + 1) [] r
  | _ =>
    match cs.takeWhile isBareKeyChar with
    | [] => none
    | key => some (String.ofList key, cs.dropWhile isBareKeyChar)

/-- The parts of a key with points between them. -/
def keyPath? : (fuel : Nat) → List Char → Option (KeyPath × List Char)
  | 0, _ => none
  | fuel + 1, cs =>
    match keyPart? (skipBlanks cs) with
    | none => none
    | some (k, r) =>
      match skipBlanks r with
      | '.' :: q => (keyPath? fuel q).map fun (path, rest) => (k :: path, rest)
      | q => some ([k], q)

/-- Digits of a class, between which single underscores may stand. -/
def underscored? (p : Char → Bool) (cs : List Char) : Option (List Char) :=
  let groups := cs.splitOn '_'
  if groups.all (fun g => !g.isEmpty && g.all p) then some groups.flatten else none

/-- A decimal number without a needless zero at its start. -/
def wholeDigits? (cs : List Char) : Option (List Char) :=
  match underscored? Char.isDigit cs with
  | some ('0' :: _ :: _) => none
  | r => r

def isRadixDigit (radix : Nat) (c : Char) : Bool := (Text.hexValue? c).any (· < radix)

/-- A number in the range of 64-bit integers. -/
def integer? (i : Int) : Option Json :=
  if -9223372036854775808 ≤ i && i ≤ 9223372036854775807 then some (.int i) else none

/-- A number in another base. -/
def radixNumber? (radix : Nat) (cs : List Char) : Option Json := do
  let digits ← underscored? (isRadixDigit radix) cs
  integer? (digits.foldl (fun n c => n * radix + (Text.hexValue? c).getD 0) 0 : Nat)

/-- The sign at the start of a number. -/
def sign (cs : List Char) : Bool × List Char :=
  match cs with
  | '+' :: r => (false, r)
  | '-' :: r => (true, r)
  | _ => (false, cs)

/-- A decimal number with a fraction or an exponent. -/
def decimal? (negative : Bool) (cs : List Char) : Option Json := do
  let mantissa := cs.takeWhile fun c => c != 'e' && c != 'E'
  let exponent := cs.drop (mantissa.length + 1)
  let hasExponent := mantissa.length < cs.length
  let whole ← wholeDigits? (mantissa.takeWhile (· != '.'))
  let fraction ← match mantissa.dropWhile (· != '.') with
    | _ :: r => (underscored? Char.isDigit r).map ('.' :: ·)
    | [] => some []
  let power ←
    if hasExponent then
      let (neg, r) := sign exponent
      (underscored? Char.isDigit r).map fun ds => 'e' :: (if neg then ['-'] else []) ++ ds
    else some []
  if fraction.isEmpty && power.isEmpty then none
  else
    return .decimal
      (String.ofList ((if negative then ['-'] else []) ++ whole ++ fraction ++ power))

/-- A number. What is infinite or undefined has no form in JSON but `null`. -/
def number? (token : List Char) : Option Json :=
  match token with
  | '0' :: 'x' :: r => radixNumber? 16 r
  | '0' :: 'o' :: r => radixNumber? 8 r
  | '0' :: 'b' :: r => radixNumber? 2 r
  | _ =>
    let (negative, r) := sign token
    if r = "inf".toList || r = "nan".toList then some (.decimal "null")
    else
      match wholeDigits? r with
      | some ds =>
        let n : Int := Json.digitsValue ds
        integer? (if negative then -n else n)
      | none => decimal? negative r

/-- Two digits of a number up to a bound. -/
def twoDigits? (least most : Nat) : List Char → Option (List Char)
  | a :: b :: r =>
    if a.isDigit && b.isDigit && least ≤ Json.digitsValue [a, b] && Json.digitsValue [a, b] ≤ most
    then some r else none
  | _ => none

/-- A fixed character. -/
def char? (c : Char) : List Char → Option (List Char)
  | x :: r => if x = c then some r else none
  | [] => none

/-- The number of days of a month. -/
def daysIn (year month : Nat) : Nat :=
  if month = 2 then
    if year % 4 = 0 && (year % 100 != 0 || year % 400 = 0) then 29 else 28
  else if [4, 6, 9, 11].contains month then 30 else 31

/-- A date at the start of a token. -/
def date? (cs : List Char) : Option (List Char) :=
  let year := cs.take 4
  if year.length = 4 && year.all Char.isDigit then do
    let r ← char? '-' (cs.drop 4)
    let q ← twoDigits? 1 12 r
    let q ← char? '-' q
    twoDigits? 1 (daysIn (Json.digitsValue year) (Json.digitsValue (r.take 2))) q
  else none

/-- A time of day at the start of a token. -/
def time? (cs : List Char) : Option (List Char) := do
  let r ← twoDigits? 0 23 cs
  let r ← char? ':' r
  let r ← twoDigits? 0 59 r
  let r ← char? ':' r
  let r ← twoDigits? 0 60 r
  match r with
  | '.' :: q => if (q.takeWhile Char.isDigit).isEmpty then none else some (q.dropWhile Char.isDigit)
  | _ => some r

/-- The distance from universal time at the end of a token. -/
def isOffset (cs : List Char) : Bool :=
  match cs with
  | [] => true
  | ['Z'] => true
  | ['z'] => true
  | c :: r =>
    (c = '+' || c = '-') &&
      ((twoDigits? 0 23 r).bind fun r => (char? ':' r).bind (twoDigits? 0 59)) == some []

/-- The reserved member that holds the text of a date. -/
def dateKey : String := "$__toml_private_datetime"

/-- A date, a time or both. -/
def dateTime? (token : List Char) : Option Json :=
  let isTime := time? token == some []
  let isDate := match date? token with
    | none => false
    | some [] => true
    | some (c :: r) =>
      (c = 'T' || c = 't' || c = ' ') &&
        (match time? r with
        | some q => isOffset q
        | none => false)
  if isTime || isDate then
    let text := token.map fun c => if c = 't' || c = ' ' then 'T' else if c = 'z' then 'Z' else c
    some (.obj [(dateKey, .str (String.ofList text))])
  else none

/-- Characters of numbers, words and dates. -/
def isTokenChar (c : Char) : Bool :=
  c.isAlphanum || c = '_' || c = '-' || c = '+' || c = '.' || c = ':'

/-- An unquoted value. A single blank may stand between a date and a time. -/
def bare? (cs : List Char) : Option (Json × List Char) :=
  let token := cs.takeWhile isTokenChar
  let rest := cs.dropWhile isTokenChar
  let longer := match rest with
    | ' ' :: r =>
      if date? token == some [] && r.head?.any Char.isDigit then
        (dateTime? (token ++ ' ' :: r.takeWhile isTokenChar)).map (·, r.dropWhile isTokenChar)
      else none
    | _ => none
  longer.or <|
    if token = "true".toList then some (.bool true, rest)
    else if token = "false".toList then some (.bool false, rest)
    else ((dateTime? token).or (number? token)).map (·, rest)

mutual

/-- A value at the start of a text. -/
def value? : (fuel : Nat) → List Char → Option (Json × List Char)
  | 0, _ => none
  | fuel + 1, cs =>
    match cs with
    | '[' :: r => items? fuel [] r
    | '\x7b' :: r =>
      match skipBlanks r with
      | '\x7d' :: q => some (.obj [], q)
      | q => members? fuel [] q
    | c :: _ =>
      if c = '"' || c = '\'' then (quoted? cs).map fun (s, r) => (.str s, r) else bare? cs
    | [] => none

/-- The items of an array up to its closing bracket. -/
def items? : (fuel : Nat) → List Json → List Char → Option (Json × List Char)
  | 0, _, _ => none
  | fuel + 1, done, cs =>
    match skipLines? (cs.length + 1) cs with
    | none => none
    | some (']' :: r) => some (.arr done.reverse, r)
    | some q =>
      match value? fuel q with
      | none => none
      | some (v, r) =>
        match skipLines? (r.length + 1) r with
        | some (',' :: q) => items? fuel (v :: done) q
        | some (']' :: q) => some (.arr (v :: done).reverse, q)
        | _ => none

/-- The members of an inline table up to its closing brace. -/
def members? : (fuel : Nat) → List (KeyPath × Json) → List Char → Option (Json × List Char)
  | 0, _, _ => none
  | fuel + 1, done, cs =>
    match keyPath? (cs.length + 1) cs with
    | some (path, '=' :: r) =>
      match value? fuel (skipBlanks r) with
      | none => none
      | some (v, r) =>
        let done := (path, v) :: done
        match skipBlanks r with
        | ',' :: q => members? fuel done q
        | '\x7d' :: q =>
          (Table.assignAll done.reverse []).map fun t => (.obj (Entry.membersToJson t), q)
        | _ => none
    | _ => none

end

/-- A statement at the start of a line, up to the end of the line. -/
def statement? (cs : List Char) : Option (Statement × List Char) :=
  let fuel := cs.length + 1
  match cs with
  | '[' :: '[' :: r =>
    match keyPath? fuel r with
    | some (path, ']' :: ']' :: q) => (endOfLine? q).map (.arrayItem path, ·)
    | _ => none
  | '[' :: r =>
    match keyPath? fuel r with
    | some (path, ']' :: q) => (endOfLine? q).map (.table path, ·)
    | _ => none
  | _ =>
    match keyPath? fuel cs with
    | some (path, '=' :: r) =>
      match value? fuel (skipBlanks r) with
      | some (v, q) => (endOfLine? q).map (.assign path v, ·)
      | none => none
    | _ => none

/-- The statements of a text. -/
def statements? : (fuel : Nat) → List Char → Option (List Statement)
  | 0, _ => none
  | fuel + 1, cs =>
    match skipLines? (cs.length + 1) cs with
    | none => none
    | some [] => some []
    | some q =>
      match statement? q with
      | none => none
      | some (s, r) => (statements? fuel r).map (s :: ·)

/-- The value of a document; a byte order mark at its start does not count. -/
def parse? (text : String) : Option Json :=
  let cs := match text.toList with
    | '\uFEFF' :: r => r
    | cs => cs
  (statements? (cs.length + 1) cs).bind ofStatements?

end Bindery.Toml
