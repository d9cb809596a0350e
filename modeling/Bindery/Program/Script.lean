import Bindery.Program.Basic
import Bindery.Text.Blank

/-!
# Scripts

The syntax of scripts: words with quotes and variables, redirections, pipelines, lists and
conditionals. A script is cut into tokens and these are gathered into commands.
-/

namespace Bindery.Script

/-- A stretch of a word. -/
inductive Piece where
  | plain (text : String)
  /-- Text that cannot be taken for a keyword or cut up. -/
  | quoted (text : String)
  /-- The value of a variable, or another text where it has none. -/
  | variable_ (name : String) (fallback : String) (isQuoted : Bool)
  deriving DecidableEq, Repr

abbrev Word := List Piece

/-- Where an output goes. -/
inductive Target where
  | output
  | errors
  | nowhere
  deriving DecidableEq, Repr

/-- A redirection of an output; the input can only be cut off. -/
inductive Redirection where
  | send (errors : Bool) (to_ : Word)
  | copy (errors : Bool) (to_ : Target)
  | noInput
  deriving DecidableEq, Repr

inductive Token where
  | word (w : Word)
  | sign (text : String)
  | redirection (r : Redirection)
  /-- The next word says where the output goes. -/
  | toFile (errors : Bool)
  | fromFile
  deriving DecidableEq, Repr

/-- A command. -/
inductive Command where
  | simple (settings : List (String × Word)) (words : List Word) (redirections : List Redirection)
  | pipe (first second : Command)
  | both (first second : Command)
  | either (first second : Command)
  | sequence (first second : Command)
  | negated (c : Command)
  | branch (condition yes no : Command)
  | nothing
  deriving Repr

/-! ## Tokens -/

/-- A character of a variable's name. -/
def isNameChar (c : Char) : Bool := c.isAlphanum || c = '_'

/-- A variable behind a dollar sign: its name, and the text that stands in for it. -/
structure VariableUse where
  name : String
  fallback : String := ""

/-- The use of a variable that stands between braces. -/
def bracedVariable (text : List Char) : VariableUse :=
  let name := text.takeWhile fun c => isNameChar c || "$?#@*".toList.contains c
  match text.drop name.length with
  | ':' :: '-' :: fallback => { name := String.ofList name, fallback := String.ofList fallback }
  | '-' :: fallback => { name := String.ofList name, fallback := String.ofList fallback }
  | _ => { name := String.ofList text }

/-- The variable behind a dollar sign. -/
def variableAt? : List Char → Option (VariableUse × List Char)
  | '\x7b' :: r =>
    let text := r.takeWhile (· != '\x7d')
    match r.drop text.length with
    | _ :: q => some (bracedVariable text, q)
    | [] => none
  | c :: r =>
    if c.isAlpha || c = '_' then
      let rest := r.takeWhile isNameChar
      some ({ name := String.ofList (c :: rest) }, r.drop rest.length)
    else if c.isDigit || c = '$' || c = '?' || c = '#' || c = '@' || c = '*' then
      some ({ name := String.singleton c }, r)
    else none
  | [] => none

/-- The pieces between double quotes. -/
def quotedPieces : (fuel : Nat) → List Char → Option (List Piece × List Char)
  | 0, _ => none
  | _ + 1, [] => none
  | _ + 1, '"' :: r => some ([], r)
  | fuel + 1, '\\' :: c :: r =>
    (quotedPieces fuel r).map fun (ps, q) =>
      (if c = '"' || c = '\\' || c = '$' || c = '\x60' then
        (Piece.quoted (String.singleton c) :: ps, q)
      else if c = '\n' then (ps, q)
      else (Piece.quoted (String.ofList ['\\', c]) :: ps, q))
  | fuel + 1, '$' :: r =>
    match variableAt? r with
    | some (v, q) =>
      (quotedPieces fuel q).map fun (ps, q) => (.variable_ v.name v.fallback true :: ps, q)
    | none => (quotedPieces fuel r).map fun (ps, q) => (.quoted "$" :: ps, q)
  | fuel + 1, c :: r =>
    (quotedPieces fuel r).map fun (ps, q) => (.quoted (String.singleton c) :: ps, q)

/-- A character that ends a word. -/
def endsWord (c : Char) : Bool := " \t\n;&|<>()".toList.contains c

/-- The word at the start of a text. -/
def wordAt : (fuel : Nat) → List Char → Option (Word × List Char)
  | 0, _ => none
  | _ + 1, [] => some ([], [])
  | fuel + 1, '\'' :: r =>
    let text := r.takeWhile (· != '\'')
    match r.drop text.length with
    | _ :: q => (wordAt fuel q).map fun (w, q) => (.quoted (String.ofList text) :: w, q)
    | [] => none
  | fuel + 1, '"' :: r =>
    (quotedPieces fuel r).bind fun (ps, q) =>
      (wordAt fuel q).map fun (w, q) => (.quoted "" :: ps ++ w, q)
  | fuel + 1, '\\' :: c :: r =>
    (wordAt fuel r).map fun (w, q) =>
      (if c = '\n' then (w, q) else (.quoted (String.singleton c) :: w, q))
  | fuel + 1, '$' :: r =>
    match variableAt? r with
    | some (v, q) =>
      (wordAt fuel q).map fun (w, q) => (.variable_ v.name v.fallback false :: w, q)
    | none => (wordAt fuel r).map fun (w, q) => (.plain "$" :: w, q)
  | fuel + 1, c :: r =>
    if endsWord c then some ([], c :: r)
    else (wordAt fuel r).map fun (w, q) => (.plain (String.singleton c) :: w, q)

/-- The tokens of a script. -/
def tokens : (fuel : Nat) → List Char → Option (List Token)
  | 0, _ => none
  | _ + 1, [] => some []
  | fuel + 1, ' ' :: r => tokens fuel r
  | fuel + 1, '\t' :: r => tokens fuel r
  | fuel + 1, '#' :: r => tokens fuel (r.dropWhile (· != '\n'))
  | fuel + 1, '\n' :: r => (tokens fuel r).map (.sign ";" :: ·)
  | fuel + 1, ';' :: r => (tokens fuel r).map (.sign ";" :: ·)
  | fuel + 1, '&' :: '&' :: r => (tokens fuel r).map (.sign "&&" :: ·)
  | fuel + 1, '&' :: r => (tokens fuel r).map (.sign ";" :: ·)
  | fuel + 1, '|' :: '|' :: r => (tokens fuel r).map (.sign "||" :: ·)
  | fuel + 1, '|' :: r => (tokens fuel r).map (.sign "|" :: ·)
  | fuel + 1, '(' :: r => (tokens fuel r).map (.sign "(" :: ·)
  | fuel + 1, ')' :: r => (tokens fuel r).map (.sign ")" :: ·)
  | fuel + 1, '2' :: '>' :: '&' :: '1' :: r =>
    (tokens fuel r).map (.redirection (.copy true .output) :: ·)
  | fuel + 1, '1' :: '>' :: '&' :: '2' :: r =>
    (tokens fuel r).map (.redirection (.copy false .errors) :: ·)
  | fuel + 1, '>' :: '&' :: '2' :: r =>
    (tokens fuel r).map (.redirection (.copy false .errors) :: ·)
  | fuel + 1, '>' :: '&' :: '1' :: r =>
    (tokens fuel r).map (.redirection (.copy false .output) :: ·)
  | fuel + 1, '2' :: '>' :: '>' :: r => (tokens fuel r).map (.toFile true :: ·)
  | fuel + 1, '2' :: '>' :: r => (tokens fuel r).map (.toFile true :: ·)
  | fuel + 1, '1' :: '>' :: r => (tokens fuel r).map (.toFile false :: ·)
  | fuel + 1, '>' :: '>' :: r => (tokens fuel r).map (.toFile false :: ·)
  | fuel + 1, '>' :: r => (tokens fuel r).map (.toFile false :: ·)
  | fuel + 1, '<' :: r => (tokens fuel r).map (.fromFile :: ·)
  | fuel + 1, cs =>
    (wordAt (cs.length + 1) cs).bind fun (w, q) => (tokens fuel q).map (.word w :: ·)

/-! ## Commands -/

/-- The text of a piece without quotes and variables. -/
def Piece.plain? : Piece → Option String
  | .plain s => some s
  | _ => none

/-- The text of a word without quotes and variables. -/
def plainText? (w : Word) : Option String := (w.mapM Piece.plain?).map String.join

/-- The keyword that a token may stand for. -/
def Token.plain? : Token → Option String
  | .word w => plainText? w
  | _ => none

/-- A word of the form name, equals sign, value. -/
def setting? (w : Word) : Option (String × Word) :=
  let name := w.takeWhile fun
    | .plain s => s != "="
    | _ => false
  match plainText? name, w.drop name.length with
  | some n, .plain "=" :: value =>
    if !n.isEmpty && n.toList.all isNameChar && !(n.toList.head?.any Char.isDigit) then
      some (n, value)
    else none
  | _, _ => none

/-- The words that end a list of commands. -/
def closers : List String := ["then", "elif", "else", "fi", "\x7d"]

/-- Adds what a token adds to a simple command. -/
def simpleParts (settings : List (String × Word)) (words : List Word)
    (redirections : List Redirection) : List Token → Command × List Token
  | .redirection r :: q => simpleParts settings words (redirections ++ [r]) q
  | .toFile errors :: .word w :: q =>
    simpleParts settings words (redirections ++ [.send errors w]) q
  | .fromFile :: .word _ :: q => simpleParts settings words (redirections ++ [.noInput]) q
  | .word w :: q =>
    match words, setting? w with
    | [], some s => simpleParts (settings ++ [s]) [] redirections q
    | _, _ => simpleParts settings (words ++ [w]) redirections q
  | q => (.simple settings words redirections, q)

mutual

/-- A list of commands up to its end. -/
def listAt : (fuel : Nat) → List Token → Option (Command × List Token)
  | 0, _ => none
  | fuel + 1, ts =>
    match ts with
    | [] => some (.nothing, [])
    | .sign ")" :: _ => some (.nothing, ts)
    | .sign ";" :: r => listAt fuel r
    | t :: _ =>
      if (t.plain?).any closers.contains then some (.nothing, ts)
      else
        match chainAt fuel ts with
        | none => none
        | some (c, .sign ";" :: r) =>
          (listAt fuel r).map fun (d, q) => (.sequence c d, q)
        | some (c, r) => some (c, r)

/-- Pipelines, each of which decides whether the next one is run. -/
def chainAt : (fuel : Nat) → List Token → Option (Command × List Token)
  | 0, _ => none
  | fuel + 1, ts =>
    match pipelineAt fuel ts with
    | none => none
    | some (c, r) => moreChain fuel c r

def moreChain : (fuel : Nat) → Command → List Token → Option (Command × List Token)
  | 0, _, _ => none
  | fuel + 1, c, .sign "&&" :: r =>
    (pipelineAt fuel r).bind fun (d, q) => moreChain fuel (.both c d) q
  | fuel + 1, c, .sign "||" :: r =>
    (pipelineAt fuel r).bind fun (d, q) => moreChain fuel (.either c d) q
  | _ + 1, c, r => some (c, r)

/-- Commands, each of which reads what the one before wrote. -/
def pipelineAt : (fuel : Nat) → List Token → Option (Command × List Token)
  | 0, _ => none
  | fuel + 1, ts =>
    match ts with
    | .word [.plain "!"] :: r => (pipelineAt fuel r).map fun (c, q) => (.negated c, q)
    | _ =>
      match commandAt fuel ts with
      | some (c, .sign "|" :: r) => (pipelineAt fuel r).map fun (d, q) => (.pipe c d, q)
      | other => other

/-- A single command. -/
def commandAt : (fuel : Nat) → List Token → Option (Command × List Token)
  | 0, _ => none
  | fuel + 1, ts =>
    match ts with
    | .sign "(" :: r =>
      match listAt fuel r with
      | some (c, .sign ")" :: q) => some (c, q)
      | _ => none
    | [] => none
    | .sign _ :: _ => none
    | t :: r =>
      match t.plain? with
      | some "\x7b" =>
        match listAt fuel r with
        | some (c, .word [.plain "\x7d"] :: q) => some (c, q)
        | _ => none
      | some "if" => branchAt fuel r
      | _ => some (simpleParts [] [] [] ts)

/-- A conditional behind its first word. -/
def branchAt : (fuel : Nat) → List Token → Option (Command × List Token)
  | 0, _ => none
  | fuel + 1, ts => do
    let (condition, r) ← listAt fuel ts
    let (t, r) ← nextWord? r
    if t != "then" then none
    else
      let (yes, r) ← listAt fuel r
      let (t, r) ← nextWord? r
      match t with
      | "fi" => return (.branch condition yes .nothing, r)
      | "elif" =>
        let (no, r) ← branchAt fuel r
        return (.branch condition yes no, r)
      | "else" =>
        let (no, r) ← listAt fuel r
        let (t, r) ← nextWord? r
        if t = "fi" then return (.branch condition yes no, r) else none
      | _ => none

def nextWord? : List Token → Option (String × List Token)
  | t :: r => t.plain?.map (·, r)
  | [] => none

end

/-- The commands of a script. -/
def parse? (text : String) : Option Command := do
  let cs := text.toList
  let ts ← tokens (2 * cs.length + 2) cs
  match ← listAt (6 * ts.length + 6) ts with
  | (c, []) => return c
  | _ => none

end Bindery.Script
