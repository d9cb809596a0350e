import Bindery.Program.Basic
import Bindery.Text.Hex

/-!
# Filters

Small programs that copy their input or arguments to their output with some change. They work on
bytes.
-/

namespace Bindery.Filter

/-- A result with an error message and a failing status. -/
def complain (message : String) (status : Nat) : ProgramResult :=
  { errors := bytesOf (message ++ "\n"), status := .code status }

/-- The names of the input. -/
def inputNames : List String := ["-", "/dev/stdin"]

/-- Copies the files that are named, of which only the input and the empty file are there. The
input can be read once. -/
def copyParts (input : List UInt8) : List String → ProgramResult
  | [] => {}
  | part :: r =>
    if inputNames.contains part then
      let rest := copyParts [] r
      { rest with output := input ++ rest.output }
    else if part = "/dev/null" then copyParts input r
    else
      let rest := copyParts input r
      { rest with
        errors := bytesOf ("cat: " ++ part ++ ": No such file or directory\n") ++ rest.errors
        status := .code 1 }

/-- Copies the input, or what the arguments name. -/
def copy (call : ProgramCall) : ProgramResult :=
  copyParts call.input (if call.args.isEmpty then ["-"] else call.args)

/-- The value of an octal digit. -/
def octal? (b : UInt8) : Option Nat :=
  if 48 ≤ b && b ≤ 55 then some (b.toNat - 48) else none

/-- The value of the octal digits at the start of some bytes, of which at most `limit` count. -/
def octalValue : (limit : Nat) → Nat → List UInt8 → Nat × List UInt8
  | 0, n, bs => (n, bs)
  | _ + 1, n, [] => (n, [])
  | limit + 1, n, b :: r =>
    match octal? b with
    | some d => octalValue limit (8 * n + d) r
    | none => (n, b :: r)

/-- The byte that a letter behind a backslash stands for. -/
def escape? (b : UInt8) : Option UInt8 :=
  match Char.ofNat b.toNat with
  | 'a' => some 7
  | 'b' => some 8
  | 'f' => some 12
  | 'n' => some 10
  | 'r' => some 13
  | 't' => some 9
  | 'v' => some 11
  | '\\' => some 92
  | _ => none

/-- Reads one byte, which may be escaped, off the start of some bytes. -/
def escaped : List UInt8 → Option (UInt8 × List UInt8)
  | [] => none
  | 92 :: b :: r =>
    match escape? b with
    | some x => some (x, r)
    | none =>
      match octal? b with
      | some d =>
        let (n, q) := octalValue 2 d r
        some (UInt8.ofNat n, q)
      | none => some (b, r)
  | b :: r => some (b, r)

/-- The classes of bytes that have names. -/
def byteClass? (name : String) : Option (List UInt8) :=
  let range (a b : Nat) : List UInt8 := (List.range (b + 1 - a)).map fun i => UInt8.ofNat (a + i)
  let upper := range 65 90
  let lower := range 97 122
  let digit := range 48 57
  match name with
  | "upper" => some upper
  | "lower" => some lower
  | "digit" => some digit
  | "alpha" => some (upper ++ lower)
  | "alnum" => some (digit ++ upper ++ lower)
  | "space" => some (range 9 13 ++ [32])
  | "blank" => some [9, 32]
  | "punct" => some (range 33 47 ++ range 58 64 ++ range 91 96 ++ range 123 126)
  | _ => none

/-- A named class at the start of some bytes. -/
def classAt? : List UInt8 → Option (List UInt8 × List UInt8)
  | 91 :: 58 :: r =>
    let name := r.takeWhile (· != 58)
    match r.drop name.length with
    | 58 :: 93 :: q =>
      (byteClass? (String.ofList (name.map fun b => Char.ofNat b.toNat))).map (·, q)
    | _ => none
  | _ => none

/-- The bytes that a set names one by one, by ranges and by classes. -/
def byteSet : (fuel : Nat) → List UInt8 → List UInt8
  | 0, _ => []
  | fuel + 1, bs =>
    match classAt? bs with
    | some (members, r) => members ++ byteSet fuel r
    | none =>
      match escaped bs with
      | none => []
      | some (a, 45 :: r) =>
        match escaped r with
        | none => [a, 45]
        | some (b, q) =>
          ((List.range (b.toNat + 1 - a.toNat)).map fun i => UInt8.ofNat (a.toNat + i))
            ++ byteSet fuel q
      | some (a, r) => a :: byteSet fuel r

/-- The bytes that a text names as a set. -/
def setOf (text : String) : List UInt8 := byteSet (text.utf8ByteSize + 1) (bytesOf text)

/-- The byte that a byte is replaced by. A second set that is too short is continued by its last
member; of two places of a byte the last counts. -/
def translate (first second : List UInt8) (b : UInt8) : UInt8 :=
  match (first.reverse.idxOf? b).map fun i => first.length - 1 - i with
  | some i => (second[i]?).getD (second.getLast?.getD b)
  | none => b

/-- Runs of the same member of a set become one byte. -/
def squeeze (members : List UInt8) : List UInt8 → List UInt8
  | [] => []
  | b :: r =>
    match squeeze members r with
    | [] => [b]
    | c :: q => if b = c && members.contains b then c :: q else b :: c :: q

/-- Replaces, deletes or squeezes bytes. -/
def transliterate (call : ProgramCall) : ProgramResult :=
  let isOption (a : String) := a.toList.head? = some '-' && 1 < a.length
  let letters := (call.args.takeWhile isOption).flatMap fun a => a.toList.drop 1
  let sets := call.args.dropWhile isOption
  let complement := letters.contains 'c' || letters.contains 'C'
  let named (s : String) : List UInt8 :=
    if complement then
      ((List.range 256).map UInt8.ofNat).filter fun b => !(setOf s).contains b
    else setOf s
  let delete := letters.contains 'd'
  let squeezed := letters.contains 's'
  match sets, delete, squeezed with
  | [a], true, false => { output := call.input.filter fun b => !(named a).contains b }
  | [a], false, true => { output := squeeze (named a) call.input }
  | [a, b], true, true =>
    { output := squeeze (setOf b) (call.input.filter fun x => !(named a).contains x) }
  | [_, ""], false, _ => complain "tr: when not truncating set1, string2 must be non-empty" 1
  | [a, b], false, _ =>
    let out := call.input.map (translate (named a) (setOf b))
    { output := if squeezed then squeeze (setOf b) out else out }
  | _, _, _ =>
    complain "tr: missing operand\nTry 'tr --help' for more information." 1

/-- The arguments with a blank between them. -/
def joined : List String → List UInt8
  | [] => []
  | [a] => bytesOf a
  | a :: r => bytesOf a ++ 32 :: joined r

/-- The bytes with escapes read; the flag tells that the rest is to be left out. -/
def unescape : (fuel : Nat) → List UInt8 → List UInt8 × Bool
  | 0, _ => ([], false)
  | _ + 1, [] => ([], false)
  | _ + 1, 92 :: 99 :: _ => ([], true)
  | fuel + 1, 92 :: 48 :: r =>
    let (n, q) := octalValue 3 0 r
    let (rest, stop) := unescape fuel q
    (UInt8.ofNat n :: rest, stop)
  | fuel + 1, 92 :: b :: r =>
    let (rest, stop) := unescape fuel r
    match escape? b with
    | some x => (x :: rest, stop)
    | none => (92 :: b :: rest, stop)
  | fuel + 1, b :: r =>
    let (rest, stop) := unescape fuel r
    (b :: rest, stop)

/-- Writes the arguments, and a line feed unless the first argument forbids it. -/
def echo (call : ProgramCall) : ProgramResult :=
  let (bare, args) := match call.args with
    | "-n" :: r => (true, r)
    | args => (false, args)
  let text := joined args
  let (out, stop) := unescape (text.length + 1) text
  { output := if bare || stop then out else out ++ [10] }

/-- The argument that a conversion writes, in the form that the conversion asks for. -/
def converted? (conversion : Char) (arg : Option String) : Option (List UInt8) :=
  match conversion with
  | 's' => some (bytesOf (arg.getD ""))
  | 'b' =>
    let bs := bytesOf (arg.getD "")
    some (unescape (bs.length + 1) bs).1
  | 'c' => some ((bytesOf (arg.getD "")).take 1)
  | 'd' => some (bytesOf (toString ((arg.bind String.toInt?).getD 0)))
  | 'i' => some (bytesOf (toString ((arg.bind String.toInt?).getD 0)))
  | 'u' => some (bytesOf (toString ((arg.bind String.toNat?).getD 0)))
  | 'o' => some (bytesOf (String.ofList (Nat.toDigits 8 ((arg.bind String.toNat?).getD 0))))
  | 'x' => some (bytesOf (String.ofList (Nat.toDigits 16 ((arg.bind String.toNat?).getD 0))))
  | _ => none

/-- One pass through a format: what is written and the arguments that are left. -/
def formatOnce : (fuel : Nat) → List UInt8 → List String → List UInt8 × List String
  | 0, _, args => ([], args)
  | _ + 1, [], args => ([], args)
  | fuel + 1, 37 :: 37 :: r, args =>
    let (out, args) := formatOnce fuel r args
    (37 :: out, args)
  | fuel + 1, 37 :: b :: r, args =>
    match converted? (Char.ofNat b.toNat) args.head? with
    | some text =>
      let (out, args) := formatOnce fuel r args.tail
      (text ++ out, args)
    | none =>
      let (out, args) := formatOnce fuel r args
      (37 :: b :: out, args)
  | fuel + 1, 92 :: b :: r, args =>
    if (escape? b).isNone && (octal? b).isNone then
      let (out, args) := formatOnce fuel r args
      (92 :: b :: out, args)
    else
      match escaped (92 :: b :: r) with
      | none => ([], args)
      | some (x, q) =>
        let (out, args) := formatOnce fuel q args
        (x :: out, args)
  | fuel + 1, b :: r, args =>
    let (out, args) := formatOnce fuel r args
    (b :: out, args)

/-- Passes through a format until no argument is left; a format that takes none is used once. -/
def formatAll (format : List UInt8) : (fuel : Nat) → List String → List UInt8
  | 0, _ => []
  | fuel + 1, args =>
    let (out, rest) := formatOnce (format.length + 1) format args
    if rest.isEmpty || rest.length = args.length then out else out ++ formatAll format fuel rest

/-- Writes arguments as a format says. -/
def formatted (call : ProgramCall) : ProgramResult :=
  match call.args with
  | [] => complain "printf: usage: printf format [arg ...]" 2
  | format :: args => { output := formatAll (bytesOf format) (args.length + 1) args }

/-- Compares two texts, or the numbers that they stand for. -/
def compares? (operator a b : String) : Option Bool :=
  let numbers (test : Int → Int → Bool) : Option Bool := do
    return test (← a.toInt?) (← b.toInt?)
  match operator with
  | "=" => some (a = b)
  | "!=" => some (a != b)
  | "-eq" => numbers (fun x y => x = y)
  | "-ne" => numbers (fun x y => x != y)
  | "-lt" => numbers (fun x y => x < y)
  | "-le" => numbers (fun x y => x ≤ y)
  | "-gt" => numbers (fun x y => y < x)
  | "-ge" => numbers (fun x y => y ≤ x)
  | _ => none

/-- Whether a condition on texts holds; no files are there to be asked about. -/
def condition? : List String → Option Bool
  | [] => some false
  | [a] => some (a != "")
  | ["!", a] => some (a = "")
  | ["-n", a] => some (a != "")
  | ["-z", a] => some (a = "")
  | [_, _] => some false
  | [a, operator, b] =>
    match compares? operator a b with
    | some holds => some holds
    | none => if a = "!" then (condition? [operator, b]).map not else none
  | "!" :: r => (condition? r).map not
  | _ => none

/-- Reports whether a condition holds by its status. -/
def test (call : ProgramCall) : ProgramResult :=
  match condition? call.args with
  | some true => {}
  | some false => { status := .code 1 }
  | none => complain "sh: 1: test: unexpected operator" 2

/-- The test in brackets. -/
def bracketTest (call : ProgramCall) : ProgramResult :=
  if call.args.getLast? = some "]" then test { call with args := call.args.dropLast }
  else complain "sh: 1: [: missing ]" 2

/-- The filters by name. -/
def named? : String → Option (ProgramCall → ProgramResult)
  | "cat" => some copy
  | "tr" => some transliterate
  | "echo" => some echo
  | "printf" => some formatted
  | "true" => some fun _ => {}
  | ":" => some fun _ => {}
  | "false" => some fun _ => { status := .code 1 }
  | "test" => some test
  | "[" => some bracketTest
  | _ => none

end Bindery.Filter
