import Bindery.Pattern.Basic
import Bindery.Text.Blank
import Bindery.Text.Hex

/-!
# Reading patterns

The notation of regular expressions without look-around and back-references: groups with flags,
classes with nested sets and set operations, named classes, counted repetitions. A pattern that is
not well formed, that nests too deeply or that would take too much room is refused.

Every function takes characters off the front of a text and returns what is left; `none` means
that the pattern is refused. Those that can call each other use one unit of `fuel` a step.
-/

namespace Bindery.Pattern

open Unicode (Ranges)

/-- The switches that a pattern can set for a part of itself. -/
structure Flags where
  ignoreCase : Bool := false
  multiLine : Bool := false
  dotAll : Bool := false
  unicode : Bool := true
  returns : Bool := false
  verbose : Bool := false
  deriving Repr

/-- What is carried from one part of the pattern to the next. -/
structure Reader where
  flags : Flags := {}
  /-- The names given to groups so far; no name is given twice. -/
  names : List (List Char) := []

/-- A part of a pattern with the depth to which it nests. -/
structure Part where
  expr : Expr
  depth : Nat := 0

/-- Drops blanks and comments in verbose mode: a comment ends with its line. -/
def skipVerbose (flags : Flags) (cs : List Char) : List Char :=
  if flags.verbose then go false cs else cs
where
  go (comment : Bool) : List Char → List Char
    | [] => []
    | c :: r =>
      if comment then go (c != '\n') r
      else if Text.isBlank c then go false r
      else if c = '#' then go true r
      else c :: r

/-- Characters with a meaning of their own. -/
def isMeta (c : Char) : Bool :=
  ['\\', '.', '+', '*', '?', '(', ')', '|', '[', ']', '\x7b', '\x7d', '^', '$', '#', '&', '-',
    '~'].contains c

/-- Characters that a backslash may make literal. -/
def isEscapable (c : Char) : Bool :=
  isMeta c || (c.toNat < 128 && !c.isAlphanum && c != '<' && c != '>')

/-- Something written with a backslash, outside or inside of a class. -/
inductive Escape where
  | literal (c : Char)
  | set (ranges : Ranges)
  | look (l : Look)

/-- The set of one character. -/
def single (c : Char) : Ranges := [(c.toNat, c.toNat)]

/-- The complement within the characters that the flags admit. Without the Unicode flag there is
none: it would match bytes that are no characters. -/
def negate? (flags : Flags) (negated : Bool) (set : Ranges) : Option Ranges :=
  if negated then
    if flags.unicode then some set.complement else none
  else some set

/-- The set with its case variants where case is ignored. -/
def withCase (flags : Flags) (set : Ranges) : Ranges :=
  if flags.ignoreCase then
    if flags.unicode then set.foldCase else set.foldAsciiCase
  else set

/-- The sets of digits, blanks and word characters by their letter. -/
def classLetter? (flags : Flags) (c : Char) : Option Ranges :=
  match c.toLower with
  | 'd' => some (if flags.unicode then Unicode.digitRanges else [(48, 57)])
  | 's' => some (if flags.unicode then Unicode.spaceRanges else [(9, 13), (32, 32)])
  | 'w' =>
    some (if flags.unicode then Ranges.ofList Unicode.wordParts.flatten
      else [(48, 57), (65, 90), (95, 95), (97, 122)])
  | _ => none

/-- The character with a code point, if there is one. -/
def charOf? (n : Nat) : Option Char :=
  if n < 0xD800 || (0xDFFF < n && n < 0x110000) then some (Char.ofNat n) else none

/-- The number of hexadecimal digits. -/
def hexNumber? (ds : List Char) : Option Nat :=
  ds.foldlM (fun n c => (Text.hexValue? c).map (n * 16 + ·)) 0

/-- Takes a fixed number of hexadecimal digits; in verbose mode blanks may stand between. -/
def fixedHex? (flags : Flags) : (count : Nat) → List Char → List Char →
    Option (List Char × List Char)
  | 0, done, cs => some (done.reverse, cs)
  | n + 1, done, cs =>
    match skipVerbose flags cs with
    | c :: r => if (Text.hexValue? c).isSome then fixedHex? flags n (c :: done) r else none
    | [] => none

/-- Takes hexadecimal digits up to a closing brace. -/
def bracedHex? (flags : Flags) (cs : List Char) : Option (List Char × List Char) :=
  let inside := cs.takeWhile (· != '\x7d')
  match cs.dropWhile (· != '\x7d') with
  | [] => none
  | _ :: r =>
    let digits := if flags.verbose then inside.filter (!Text.isBlank ·) else inside
    if digits.isEmpty then none else some (digits, r)

/-- The character after `\x`, `\u` or `\U`. -/
def hexEscape? (flags : Flags) (count : Nat) (cs : List Char) : Option (Char × List Char) :=
  match skipVerbose flags cs with
  | [] => none
  | c :: r => do
    let (digits, rest) ←
      if c = '\x7b' then bracedHex? flags r else fixedHex? flags count [] (c :: r)
    let n ← hexNumber? digits
    let c ← charOf? n
    return (c, rest)

/-- The set after `\p` or `\P`: one letter, or a name in braces, possibly with a value. -/
def propertyEscape? (flags : Flags) (negated : Bool) (cs : List Char) :
    Option (Ranges × List Char) :=
  match skipVerbose flags cs with
  | [] => none
  | '\\' :: _ => none
  | '\x7b' :: r =>
    let inside := r.takeWhile (· != '\x7d')
    let name := if flags.verbose then inside.filter (!Text.isBlank ·) else inside
    match r.dropWhile (· != '\x7d') with
    | [] => none
    | _ :: rest => do
      if !flags.unicode then none
      let (sets, negated) ←
        match cutAt ['!', '='] name, cutAt [':'] name, cutAt ['='] name with
        | some (p, v), _, _ => (Unicode.valued? p v).map (·, !negated)
        | none, some (p, v), _ => (Unicode.valued? p v).map (·, negated)
        | none, none, some (p, v) => (Unicode.valued? p v).map (·, negated)
        | none, none, none => (Unicode.named? name).map (·, negated)
      let set ← negate? flags negated (withCase flags (Ranges.ofList sets.flatten))
      return (set, rest)
  | c :: rest => do
    if !flags.unicode then none
    let sets ← Unicode.named? [c]
    let set ← negate? flags negated (withCase flags (Ranges.ofList sets.flatten))
    return (set, rest)
where
  /-- The texts before and after the first occurrence of a mark. -/
  cutAt (mark : List Char) : List Char → Option (List Char × List Char)
    | [] => none
    | c :: r =>
      if mark.isPrefixOf (c :: r) then some ([], (c :: r).drop mark.length)
      else (cutAt mark r).map fun (a, b) => (c :: a, b)

/-- The boundary named in braces after `\b`. Braces that do not begin like a name are left for a
repetition. -/
def namedBoundary? (flags : Flags) (cs : List Char) : Option (Look × List Char) :=
  let isNameChar (c : Char) : Bool := c.isAlpha || c = '-'
  match skipVerbose flags cs with
  | '\x7b' :: r =>
    match skipVerbose flags r with
    | [] => none
    | c :: q =>
      if isNameChar c then
        let word := (c :: q).takeWhile fun c => c != '\x7d'
        let name := if flags.verbose then word.filter (!Text.isBlank ·) else word
        match (c :: q).dropWhile fun c => c != '\x7d' with
        | [] => none
        | _ :: rest =>
          if name = "start".toList then some (.wordStart flags.unicode, rest)
          else if name = "end".toList then some (.wordEnd flags.unicode, rest)
          else if name = "start-half".toList then some (.wordStartHalf flags.unicode, rest)
          else if name = "end-half".toList then some (.wordEndHalf flags.unicode, rest)
          else none
      else some (.wordBoundary flags.unicode, '\x7b' :: r)
  | _ => some (.wordBoundary flags.unicode, cs)

/-- What follows a backslash. -/
def escape? (flags : Flags) : List Char → Option (Escape × List Char)
  | [] => none
  | c :: r =>
    if c.isDigit then none
    else if c = 'x' then (hexEscape? flags 2 r).map fun (c, r) => (.literal c, r)
    else if c = 'u' then (hexEscape? flags 4 r).map fun (c, r) => (.literal c, r)
    else if c = 'U' then (hexEscape? flags 8 r).map fun (c, r) => (.literal c, r)
    else if c = 'p' || c = 'P' then
      (propertyEscape? flags (c = 'P') r).map fun (s, r) => (.set s, r)
    else if isEscapable c then some (.literal c, r)
    else
      match c with
      | 'a' => some (.literal '\x07', r)
      | 'f' => some (.literal '\x0c', r)
      | 't' => some (.literal '\t', r)
      | 'n' => some (.literal '\n', r)
      | 'r' => some (.literal '\r', r)
      | 'v' => some (.literal '\x0b', r)
      | 'A' => some (.look .textStart, r)
      | 'z' => some (.look .textEnd, r)
      | 'b' => (namedBoundary? flags r).map fun (l, r) => (.look l, r)
      | 'B' => some (.look (.notWordBoundary flags.unicode), r)
      | '<' => some (.look (.wordStart flags.unicode), r)
      | '>' => some (.look (.wordEnd flags.unicode), r)
      | _ => do
        let set ← classLetter? flags c
        let set ← negate? flags c.isUpper set
        return (.set set, r)

/-- The ASCII classes by name. -/
def asciiClass? (name : List Char) : Option Ranges :=
  match String.ofList name with
  | "alnum" => some [(48, 57), (65, 90), (97, 122)]
  | "alpha" => some [(65, 90), (97, 122)]
  | "ascii" => some [(0, 127)]
  | "blank" => some [(9, 9), (32, 32)]
  | "cntrl" => some [(0, 31), (127, 127)]
  | "digit" => some [(48, 57)]
  | "graph" => some [(33, 126)]
  | "lower" => some [(97, 122)]
  | "print" => some [(32, 126)]
  | "punct" => some [(33, 47), (58, 64), (91, 96), (123, 126)]
  | "space" => some [(9, 13), (32, 32)]
  | "upper" => some [(65, 90)]
  | "word" => some [(48, 57), (65, 90), (95, 95), (97, 122)]
  | "xdigit" => some [(48, 57), (65, 70), (97, 102)]
  | _ => none

/-- A class such as `[:alpha:]` behind its opening bracket. -/
def bracketName? (cs : List Char) : Option (Bool × Ranges × List Char) :=
  match cs with
  | ':' :: r =>
    let (negated, r) := match r with
      | '^' :: q => (true, q)
      | _ => (false, r)
    let name := r.takeWhile (· != ':')
    match r.dropWhile (· != ':') with
    | ':' :: ']' :: rest => (asciiClass? name).map fun set => (negated, set, rest)
    | _ => none
  | _ => none

/-- One member of a class that may begin or end a range. -/
def classItem? (flags : Flags) : List Char → Option (Escape × List Char)
  | [] => none
  | '\\' :: r => escape? flags r
  | c :: r => some (.literal c, r)

/-- The operations between the sets of a class. -/
inductive SetOp where
  | intersect
  | difference
  | symmetric

/-- Applies a set operation; where case is ignored it is between the sets with their case
variants. -/
def SetOp.apply (flags : Flags) : SetOp → Ranges → Ranges → Ranges
  | .intersect, a, b => (withCase flags a).intersect (withCase flags b)
  | .difference, a, b => (withCase flags a).difference (withCase flags b)
  | .symmetric, a, b => (withCase flags a).symmetricDifference (withCase flags b)

/-- Finishes the operation that is waiting for its right side. -/
def finishOp (flags : Flags) (waiting : Option (SetOp × Ranges)) (right : Ranges) : Ranges :=
  match waiting with
  | some (op, left) => op.apply flags left right
  | none => right

/-- The literal hyphens, or else the literal bracket, that may begin a class. -/
def classStart (flags : Flags) (cs : List Char) : List (Nat × Nat) × List Char :=
  let isStart (c : Char) : Bool := c = '-' || (flags.verbose && Text.isBlank c)
  if (cs.takeWhile isStart).contains '-' then ([(45, 45)], cs.dropWhile isStart)
  else
    match skipVerbose flags cs with
    | ']' :: r => ([(93, 93)], r)
    | r => ([], r)

/-- The members of a class up to its closing bracket, with the depth of nested classes. `members`
holds the union read so far and `waiting` a set operation with its left side. -/
def classBody? (flags : Flags) : (fuel : Nat) → (negated : Bool) → (members : List (Nat × Nat)) →
    (waiting : Option (SetOp × Ranges)) → (depth : Nat) → List Char →
    Option (Ranges × Nat × List Char)
  | 0, _, _, _, _, _ => none
  | fuel + 1, negated, members, waiting, depth, cs =>
    let operation (op : SetOp) (r : List Char) :=
      let left := finishOp flags waiting (Ranges.ofList members)
      classBody? flags fuel negated [] (some (op, left)) (depth + 1) r
    match skipVerbose flags cs with
    | [] => none
    | '[' :: r =>
      match bracketName? r with
      | some (neg, set, rest) =>
        (negate? flags neg (withCase flags set)).bind fun set =>
          classBody? flags fuel negated (set ++ members) waiting depth rest
      | none =>
        let (neg, start) := openClass r
        let (first, start) := classStart flags start
        match classBody? flags fuel neg first none 0 start with
        | none => none
        | some (set, inner, rest) =>
          classBody? flags fuel negated (set ++ members) waiting (max depth (inner + 1)) rest
    | ']' :: r =>
      let set := withCase flags (finishOp flags waiting (Ranges.ofList members))
      (negate? flags negated set).map fun set => (set, depth, r)
    | '&' :: '&' :: r => operation .intersect r
    | '-' :: '-' :: r => operation .difference r
    | '~' :: '~' :: r => operation .symmetric r
    | cs =>
      match classItem? flags cs with
      | none => none
      | some (item, r) =>
        let r := skipVerbose flags r
        let isRange := match r with
          | '-' :: q =>
            match skipVerbose flags q with
            | ']' :: _ => false
            | '-' :: _ => false
            | _ => true
          | _ => false
        if isRange then
          match item, classItem? flags (skipVerbose flags (r.drop 1)) with
          | .literal lo, some (.literal hi, rest) =>
            if lo ≤ hi then
              classBody? flags fuel negated ((lo.toNat, hi.toNat) :: members) waiting depth rest
            else none
          | _, _ => none
        else
          match item with
          | .literal c => classBody? flags fuel negated (single c ++ members) waiting depth r
          | .set set => classBody? flags fuel negated (set ++ members) waiting depth r
          | .look _ => none
where
  /-- The sign of a class and what follows it. -/
  openClass (r : List Char) : Bool × List Char :=
    match skipVerbose flags r with
    | '^' :: q => (true, skipVerbose flags q)
    | q => (false, q)

/-- A class behind its opening bracket. -/
def class? (flags : Flags) (cs : List Char) : Option (Part × List Char) := do
  let (negated, start) := classBody?.openClass flags cs
  let (first, start) := classStart flags start
  let (set, depth, rest) ← classBody? flags (cs.length + 1) negated first none 0 start
  if !flags.unicode && !set.isAscii then none
  return ({ expr := .oneOf set, depth := depth + 1 }, rest)

/-- A literal character. Without the Unicode flag only ASCII ignores case. -/
def literal (flags : Flags) (c : Char) : Expr := .oneOf (withCase flags (single c))

/-- Any character, except the line ends where the flags say so. -/
def anyChar (flags : Flags) : Ranges :=
  if flags.dotAll then Ranges.complement []
  else if flags.returns then Ranges.complement [(10, 10), (13, 13)]
  else Ranges.complement [(10, 10)]

def startLook (flags : Flags) : Look :=
  if flags.multiLine then (if flags.returns then .returnLineStart else .lineStart) else .textStart

def endLook (flags : Flags) : Look :=
  if flags.multiLine then (if flags.returns then .returnLineEnd else .lineEnd) else .textEnd

/-- A pattern of one character or escape. -/
def primitive? (flags : Flags) : List Char → Option (Part × List Char)
  | [] => none
  | '\\' :: r =>
    match escape? flags r with
    | some (.literal c, r) => some ({ expr := literal flags c }, r)
    | some (.set s, r) => some ({ expr := .oneOf s }, r)
    | some (.look l, r) => some ({ expr := .look l }, r)
    | none => none
  | '.' :: r => if flags.unicode then some ({ expr := .oneOf (anyChar flags) }, r) else none
  | '^' :: r => some ({ expr := .look (startLook flags) }, r)
  | '$' :: r => some ({ expr := .look (endLook flags) }, r)
  | c :: r => some ({ expr := literal flags c }, r)

/-- Sets or clears one flag by its letter. The letter of greed changes no answer. -/
def Flags.set? (flags : Flags) (on : Bool) : Char → Option Flags
  | 'i' => some { flags with ignoreCase := on }
  | 'm' => some { flags with multiLine := on }
  | 's' => some { flags with dotAll := on }
  | 'u' => some { flags with unicode := on }
  | 'R' => some { flags with returns := on }
  | 'x' => some { flags with verbose := on }
  | 'U' => some flags
  | _ => none

/-- The flags of a group up to the colon or parenthesis that ends them, with that character. No
letter stands twice, and one hyphen at most, which is not the last. -/
def flags? (flags : Flags) (on : Bool) (seen : List Char) :
    List Char → Option (Flags × Bool × Char × List Char)
  | [] => none
  | c :: r =>
    if c = ':' || c = ')' then
      if seen.head? = some '-' then none else some (flags, seen.isEmpty, c, r)
    else if seen.contains c then none
    else if c = '-' then flags? flags false ('-' :: seen) r
    else
      match flags.set? on c with
      | some flags => flags? flags on (c :: seen) r
      | none => none

/-- The letters of every script. -/
def isLetter (c : Char) : Bool :=
  c.isAlpha || (128 ≤ c.toNat && ((Unicode.binary? "Alphabetic".toList).getD []).any
    (·.contains c.toNat))

def isLetterOrNumber (c : Char) : Bool :=
  isLetter c || c.isDigit
    || (128 ≤ c.toNat && (Unicode.categoryUnion ["Nd", "Nl", "No"]).any (·.contains c.toNat))

/-- The name of a group up to the closing angle bracket. -/
def groupName? (cs : List Char) : Option (List Char × List Char) :=
  let name := cs.takeWhile (· != '>')
  match name, cs.dropWhile (· != '>') with
  | first :: others, _ :: rest =>
    if (first = '_' || isLetter first) && others.all (fun c =>
        c = '_' || c = '.' || c = '[' || c = ']' || isLetterOrNumber c)
    then some (name, rest) else none
  | _, _ => none

/-- A decimal number with blanks around it. -/
def count? (flags : Flags) (cs : List Char) : Option (Option Nat × List Char) :=
  let rec digits (done : List Char) : List Char → List Char × List Char
    | [] => (done.reverse, [])
    | c :: r =>
      if c.isDigit then digits (c :: done) r
      else if flags.verbose && Text.isBlank c then digits done r
      else (done.reverse, c :: r)
  let (ds, rest) := digits [] (cs.dropWhile Text.isBlank)
  let rest := rest.dropWhile Text.isBlank
  if ds.isEmpty then some (none, rest)
  else
    let n := Unicode.decimal ds
    if n < 4294967296 then some (some n, rest) else none

/-- The bounds of a counted repetition behind its opening brace. -/
def bounds? (flags : Flags) (cs : List Char) : Option (Nat × Option Nat × List Char) := do
  let (least, r) ← count? flags cs
  let least ← least
  match r with
  | '\x7d' :: r => return (least, some least, r)
  | ',' :: r =>
    match skipVerbose flags r with
    | '\x7d' :: r => return (least, none, r)
    | r =>
      let (most, r) ← count? flags r
      let most ← most
      match r with
      | '\x7d' :: r => if least ≤ most then return (least, some most, r) else none
      | _ => none
  | _ => none

/-- Drops the mark that makes a repetition lazy, which changes no answer. -/
def skipLazy (flags : Flags) (cs : List Char) : List Char :=
  match skipVerbose flags cs with
  | '?' :: r => r
  | r => r

/-- Puts parts in sequence, the last one first. -/
def concat : List Part → Part
  | [] => { expr := .empty }
  | [p] => p
  | p :: r =>
    let q := concat r
    let deeper := if r.length = 1 then max q.depth p.depth + 1 else max q.depth (p.depth + 1)
    { expr := .seq q.expr p.expr, depth := deeper }

/-- Puts parts to choice, the last one first. -/
def choice : List Part → Part
  | [] => { expr := .empty }
  | [p] => p
  | p :: r =>
    let q := choice r
    let deeper := if r.length = 1 then max q.depth p.depth + 1 else max q.depth (p.depth + 1)
    { expr := .alt q.expr p.expr, depth := deeper }

/-- The choices up to a closing parenthesis or the end. `choices` and `parts` hold what has been
read, the last one first; `none` among the parts stands for flags, which cannot be repeated. -/
def choices? : (fuel : Nat) → Reader → (choices : List Part) → (parts : List (Option Part)) →
    List Char → Option (Part × Reader × List Char)
  | 0, _, _, _, _ => none
  | fuel + 1, st, choices, parts, cs =>
    let flags := st.flags
    let sequence := concat (parts.filterMap id)
    let repeated (least : Nat) (most : Option Nat) (r : List Char) :=
      match parts with
      | some p :: before =>
        let p := { expr := .rep p.expr least most, depth := p.depth + 1 : Part }
        choices? fuel st choices (some p :: before) (skipLazy flags r)
      | _ => none
    let group (inner : Reader) (r : List Char) :=
      match choices? fuel inner [] [] r with
      | some (p, after, ')' :: rest) =>
        let p := { p with depth := p.depth + 1 }
        choices? fuel { after with flags := st.flags } choices (some p :: parts) rest
      | _ => none
    match skipVerbose flags cs with
    | [] => some (choice (sequence :: choices), st, [])
    | ')' :: r => some (choice (sequence :: choices), st, ')' :: r)
    | '|' :: r => choices? fuel st (sequence :: choices) [] r
    | '?' :: r => repeated 0 (some 1) r
    | '*' :: r => repeated 0 none r
    | '+' :: r => repeated 1 none r
    | '\x7b' :: r =>
      match bounds? flags r with
      | some (least, most, r) => repeated least most r
      | none => none
    | '[' :: r =>
      match class? flags r with
      | some (p, r) => choices? fuel st choices (some p :: parts) r
      | none => none
    | '(' :: r =>
      match skipVerbose flags r with
      | '?' :: '=' :: _ => none
      | '?' :: '!' :: _ => none
      | '?' :: '<' :: '=' :: _ => none
      | '?' :: '<' :: '!' :: _ => none
      | '?' :: 'P' :: '<' :: q => named st group q
      | '?' :: '<' :: q => named st group q
      | '?' :: q =>
        match flags? flags true [] q with
        | some (inner, bare, ')', rest) =>
          if bare then none
          else choices? fuel { st with flags := inner } choices (none :: parts) rest
        | some (inner, _, _, rest) => group { st with flags := inner } rest
        | none => none
      | q => group st q
    | cs =>
      match primitive? flags cs with
      | some (p, r) => choices? fuel st choices (some p :: parts) r
      | none => none
where
  /-- A group with a name that no group before it has. -/
  named (st : Reader)
      (group : Reader → List Char → Option (Part × Reader × List Char)) (q : List Char) :
      Option (Part × Reader × List Char) :=
    match groupName? q with
    | some (name, rest) =>
      if st.names.contains name then none else group { st with names := name :: st.names } rest
    | none => none

/-- How deep the parts of a pattern may nest. -/
def depthLimit : Nat := 250

/-- How much room a pattern may take, in bytes. -/
def weightLimit : Nat := 10 * 1024 * 1024

/-- The structure of a pattern, if it is accepted. -/
def parse? (source : String) : Option Expr :=
  let cs := source.toList
  match choices? (cs.length + 1) {} [] [] cs with
  | some (p, _, []) =>
    if p.depth ≤ depthLimit && p.expr.weight ≤ weightLimit then some p.expr else none
  | _ => none

end Bindery.Pattern
