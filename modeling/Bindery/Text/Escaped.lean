import Bindery.Unicode.Property
import Bindery.Text.Hex

/-!
# Texts shown with everything invisible spelled out

Used where a message shows a text that may hold anything: control characters, unassigned
characters, unusual blanks and combining marks are written as numbers.
-/

namespace Bindery.Text

/-- The categories whose characters cannot be seen. -/
def invisible : List Unicode.Ranges :=
  Unicode.categoryUnion ["Cc", "Cf", "Co", "Cn", "Zl", "Zp", "Zs"]

/-- Marks that attach to the character before. -/
def attaching : List Unicode.Ranges := (Unicode.binary? "Grapheme_Extend".toList).getD []

/-- The hexadecimal digits of a number, without leading zeros. -/
def hexDigits (n : Nat) : List Char := (Nat.toDigits 16 n)

/-- How one character is shown. -/
def showChar (c : Char) : List Char :=
  if c = '"' then ['\\', '"']
  else if c = '\\' then ['\\', '\\']
  else if c = '\n' then ['\\', 'n']
  else if c = '\r' then ['\\', 'r']
  else if c = '\t' then ['\\', 't']
  else if c.toNat = 0 then ['\\', '0']
  else if 32 ≤ c.toNat && c.toNat < 127 then [c]
  else if invisible.any (·.contains c.toNat) || attaching.any (·.contains c.toNat) then
    ['\\', 'u', '\x7b'] ++ hexDigits c.toNat ++ ['\x7d']
  else [c]

/-- How a text is shown, between quotes. -/
def shown (s : String) : String :=
  String.ofList ('"' :: s.toList.flatMap showChar ++ ['"'])

end Bindery.Text
