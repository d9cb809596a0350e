/-!
# UTF-8

Decoding of byte sequences that may be malformed. A malformed stretch is the longest proper start
of an encoding, or one byte where there is no such start; `decodeLossy` puts the replacement
character in its place, `decode?` refuses the whole text.
-/

namespace Bindery.Text.Utf8

/-- A byte that continues an encoding. -/
def isContinuation (b : UInt8) : Bool := 0x80 ≤ b && b ≤ 0xBF

/-- Which second bytes may follow the first byte of a three-byte encoding: no overlong form and
no surrogate. -/
def secondOfThree (b0 b1 : UInt8) : Bool :=
  if b0 = 0xE0 then 0xA0 ≤ b1 && b1 ≤ 0xBF
  else if b0 = 0xED then 0x80 ≤ b1 && b1 ≤ 0x9F
  else isContinuation b1

/-- Which second bytes may follow the first byte of a four-byte encoding: no overlong form and
nothing above the last code point. -/
def secondOfFour (b0 b1 : UInt8) : Bool :=
  if b0 = 0xF0 then 0x90 ≤ b1 && b1 ≤ 0xBF
  else if b0 = 0xF4 then 0x80 ≤ b1 && b1 ≤ 0x8F
  else isContinuation b1

private def bits (b : UInt8) (n : Nat) : Nat := b.toNat % n

/-- The characters of a byte sequence, `none` for each malformed stretch. -/
def decodeEach : List UInt8 → List (Option Char)
  | [] => []
  | b0 :: r0 =>
    if b0 < 0x80 then some (Char.ofNat b0.toNat) :: decodeEach r0
    else if 0xC2 ≤ b0 && b0 ≤ 0xDF then
      match r0 with
      | b1 :: r1 =>
        if isContinuation b1 then
          some (Char.ofNat (bits b0 32 * 64 + bits b1 64)) :: decodeEach r1
        else none :: decodeEach (b1 :: r1)
      | [] => [none]
    else if 0xE0 ≤ b0 && b0 ≤ 0xEF then
      match r0 with
      | b1 :: r1 =>
        if secondOfThree b0 b1 then
          match r1 with
          | b2 :: r2 =>
            if isContinuation b2 then
              some (Char.ofNat (bits b0 16 * 4096 + bits b1 64 * 64 + bits b2 64)) :: decodeEach r2
            else none :: decodeEach (b2 :: r2)
          | [] => [none]
        else none :: decodeEach (b1 :: r1)
      | [] => [none]
    else if 0xF0 ≤ b0 && b0 ≤ 0xF4 then
      match r0 with
      | b1 :: r1 =>
        if secondOfFour b0 b1 then
          match r1 with
          | b2 :: r2 =>
            if isContinuation b2 then
              match r2 with
              | b3 :: r3 =>
                if isContinuation b3 then
                  some (Char.ofNat (bits b0 8 * 262144 + bits b1 64 * 4096 + bits b2 64 * 64
                    + bits b3 64)) :: decodeEach r3
                else none :: decodeEach (b3 :: r3)
              | [] => [none]
            else none :: decodeEach (b2 :: r2)
          | [] => [none]
        else none :: decodeEach (b1 :: r1)
      | [] => [none]
    else none :: decodeEach r0

/-- The text of well-formed bytes. -/
def decode? (bytes : ByteArray) : Option String := String.fromUTF8? bytes

/-- The text with the replacement character for every malformed stretch. -/
def decodeLossy (bytes : ByteArray) : String :=
  match decode? bytes with
  | some text => text
  | none => String.ofList ((decodeEach bytes.toList).map (·.getD '\uFFFD'))

/-- Well-formed bytes decode to their own text. -/
theorem decodeLossy_of_decode? {bytes : ByteArray} {text : String} (h : decode? bytes = some text) :
    decodeLossy bytes = text := by
  simp [decodeLossy, h]

end Bindery.Text.Utf8
