import Bindery.Text.Hex

/-!
# Quoted JSON text

A quoted text stands between double quotes. The quote, the backslash and the control characters
are escaped, everything else stands for itself; the reader also takes the escapes that the writer
never makes.
-/

namespace Bindery.Json

open Text (hexDigit hexValue?)

/-- The written form of one character. -/
def escapeChar (c : Char) : List Char :=
  if c = '"' then ['\\', '"']
  else if c = '\\' then ['\\', '\\']
  else if c = '\n' then ['\\', 'n']
  else if c = '\r' then ['\\', 'r']
  else if c = '\t' then ['\\', 't']
  else if c = '\x08' then ['\\', 'b']
  else if c = '\x0c' then ['\\', 'f']
  else if c.toNat < 32 then
    ['\\', 'u', '0', '0', hexDigit (c.toNat / 16), hexDigit (c.toNat % 16)]
  else [c]

/-- The written form of a text, quotes included. -/
def quoteChars (cs : List Char) : List Char := '"' :: cs.flatMap escapeChar ++ ['"']

/-- The written form of a string, quotes included. -/
def quote (s : String) : String := String.ofList (quoteChars s.toList)

/-- The number of four hexadecimal digits. -/
def hexUnit? (a b c d : Char) : Option Nat := do
  return (← hexValue? a) * 4096 + (← hexValue? b) * 256 + (← hexValue? c) * 16 + (← hexValue? d)

/-- Reads up to the closing quote: the characters before it in reverse, put before `done`, and
the rest of the text. An unescaped control character, an unknown escape and a surrogate without
its partner are refused. -/
def unquoteBody (done : List Char) : List Char → Option (List Char × List Char)
  | [] => none
  | '"' :: r => some (done.reverse, r)
  | '\\' :: '"' :: r => unquoteBody ('"' :: done) r
  | '\\' :: '\\' :: r => unquoteBody ('\\' :: done) r
  | '\\' :: '/' :: r => unquoteBody ('/' :: done) r
  | '\\' :: 'b' :: r => unquoteBody ('\x08' :: done) r
  | '\\' :: 'f' :: r => unquoteBody ('\x0c' :: done) r
  | '\\' :: 'n' :: r => unquoteBody ('\n' :: done) r
  | '\\' :: 'r' :: r => unquoteBody ('\r' :: done) r
  | '\\' :: 't' :: r => unquoteBody ('\t' :: done) r
  | '\\' :: 'u' :: a :: b :: c :: d :: r =>
    match hexUnit? a b c d with
    | none => none
    | some n =>
      if 0xD800 ≤ n && n ≤ 0xDBFF then
        match r with
        | '\\' :: 'u' :: e :: f :: g :: h :: q =>
          match hexUnit? e f g h with
          | none => none
          | some m =>
            if 0xDC00 ≤ m && m ≤ 0xDFFF then
              unquoteBody (Char.ofNat (0x10000 + (n - 0xD800) * 1024 + (m - 0xDC00)) :: done) q
            else none
        | _ => none
      else if 0xDC00 ≤ n && n ≤ 0xDFFF then none
      else unquoteBody (Char.ofNat n :: done) r
  | c :: r => if c = '\\' then none else if c.toNat < 32 then none else unquoteBody (c :: done) r

/-- Reads a quoted text at the start of `cs`. -/
def unquote? : List Char → Option (List Char × List Char)
  | '"' :: r => unquoteBody [] r
  | _ => none

end Bindery.Json
