import Bindery.Text.Hex

/-!
# The BLAKE3 digest

Input is cut into chunks of 1024 bytes and these into blocks of 64. Each chunk is folded to a
chaining value block by block; the chaining values are joined pairwise, level by level, an odd
last one moving up as it is. The last compression carries the root flag and gives the digest.
-/

namespace Bindery.Digest

/-- Eight words that carry what has been read so far. -/
abbrev Chaining := Vector UInt32 8

/-- The sixteen little-endian words of one block. -/
abbrev Block := Vector UInt32 16

namespace Blake3

/-- The initial chaining value. -/
def initial : Chaining :=
  #v[0x6A09E667, 0xBB67AE85, 0x3C6EF372, 0xA54FF53A, 0x510E527F, 0x9B05688C, 0x1F83D9AB,
    0x5BE0CD19]

def chunkStart : UInt32 := 1
def chunkEnd : UInt32 := 2
def parentNode : UInt32 := 4
def rootNode : UInt32 := 8

def rotateRight (x : UInt32) (n : UInt32) : UInt32 := (x >>> n) ||| (x <<< (32 - n))

/-- Mixes two message words into a column or diagonal of the state. -/
def mix (s : Block) (a b c d : Fin 16) (x y : UInt32) : Block :=
  let s := s.set a (s[a] + s[b] + x)
  let s := s.set d (rotateRight (s[d] ^^^ s[a]) 16)
  let s := s.set c (s[c] + s[d])
  let s := s.set b (rotateRight (s[b] ^^^ s[c]) 12)
  let s := s.set a (s[a] + s[b] + y)
  let s := s.set d (rotateRight (s[d] ^^^ s[a]) 8)
  let s := s.set c (s[c] + s[d])
  s.set b (rotateRight (s[b] ^^^ s[c]) 7)

/-- One round: the four columns, then the four diagonals. -/
def round (s m : Block) : Block :=
  let s := mix s 0 4 8 12 m[0] m[1]
  let s := mix s 1 5 9 13 m[2] m[3]
  let s := mix s 2 6 10 14 m[4] m[5]
  let s := mix s 3 7 11 15 m[6] m[7]
  let s := mix s 0 5 10 15 m[8] m[9]
  let s := mix s 1 6 11 12 m[10] m[11]
  let s := mix s 2 7 8 13 m[12] m[13]
  mix s 3 4 9 14 m[14] m[15]

/-- The order in which the next round reads the message words. -/
def permute (m : Block) : Block :=
  #v[m[2], m[6], m[3], m[10], m[7], m[0], m[4], m[13], m[1], m[11], m[12], m[5], m[9], m[14],
    m[15], m[8]]

/-- Runs the given number of rounds, permuting the message between them. -/
def rounds : Nat → Block → Block → Block
  | 0, s, _ => s
  | n + 1, s, m => rounds n (round s m) (permute m)

/-- The compression function, cut to a chaining value. -/
def compress (cv : Chaining) (m : Block) (counter : UInt64) (length flags : UInt32) : Chaining :=
  let s : Block := #v[cv[0], cv[1], cv[2], cv[3], cv[4], cv[5], cv[6], cv[7],
    initial[0], initial[1], initial[2], initial[3],
    counter.toUInt32, (counter >>> 32).toUInt32, length, flags]
  let s := rounds 7 s m
  #v[s[0] ^^^ s[8], s[1] ^^^ s[9], s[2] ^^^ s[10], s[3] ^^^ s[11], s[4] ^^^ s[12],
    s[5] ^^^ s[13], s[6] ^^^ s[14], s[7] ^^^ s[15]]

/-- The words of up to 64 bytes from `offset` on; bytes past `stop` count as zero. -/
def blockAt (bytes : ByteArray) (offset stop : Nat) : Block :=
  let byte (i : Nat) : UInt32 :=
    if i < stop then
      match bytes[i]? with
      | some b => b.toUInt32
      | none => 0
    else 0
  Vector.ofFn fun w =>
    let i := offset + 4 * w.val
    byte i ||| (byte (i + 1) <<< 8) ||| (byte (i + 2) <<< 16) ||| (byte (i + 3) <<< 24)

/-- Folds the blocks of the chunk with the given number; `last` flags are put on its last
block. -/
def chunkBlocks (bytes : ByteArray) (number : UInt64) (stop : Nat) (last : UInt32) :
    (blocks offset : Nat) → (start : UInt32) → Chaining → Chaining
  | 0, _, _, cv => cv
  | n + 1, offset, start, cv =>
    let flags := start ||| (if n = 0 then chunkEnd ||| last else 0)
    let length := min 64 (stop - offset)
    let cv := compress cv (blockAt bytes offset stop) number (UInt32.ofNat length) flags
    chunkBlocks bytes number stop last n (offset + 64) 0 cv

/-- The chaining value of the chunk with the given number. -/
def chunk (bytes : ByteArray) (number : Nat) (last : UInt32) : Chaining :=
  let offset := 1024 * number
  let stop := min bytes.size (offset + 1024)
  let blocks := max 1 ((stop - offset + 63) / 64)
  chunkBlocks bytes (UInt64.ofNat number) stop last blocks offset chunkStart initial

/-- The chaining value of a node over two others. -/
def parent (l r : Chaining) (last : UInt32) : Chaining :=
  let m : Block := #v[l[0], l[1], l[2], l[3], l[4], l[5], l[6], l[7], r[0], r[1], r[2], r[3],
    r[4], r[5], r[6], r[7]]
  compress initial m 0 64 (parentNode ||| last)

/-- Joins neighbours; an odd last one stays. -/
def pairUp : List Chaining → List Chaining
  | l :: r :: rest => parent l r 0 :: pairUp rest
  | cvs => cvs

/-- Joins level by level until two nodes are left, which the root joins. -/
def root : (fuel : Nat) → List Chaining → Chaining
  | _, [l, r] => parent l r rootNode
  | fuel + 1, l :: r :: rest => root fuel (pairUp (l :: r :: rest))
  | _, cv :: _ => cv
  | _, [] => initial

/-- The words of the digest. -/
def words (bytes : ByteArray) : Chaining :=
  let chunks := (bytes.size + 1023) / 1024
  if chunks ≤ 1 then chunk bytes 0 rootNode
  else root chunks ((List.range chunks).map (chunk bytes · 0))

/-- A word as its four bytes, lowest first. -/
def hexWord (w : UInt32) : List Char :=
  let n := w.toNat
  Text.hexByte n ++ Text.hexByte (n / 256) ++ Text.hexByte (n / 65536) ++ Text.hexByte (n / 16777216)

end Blake3

/-- The BLAKE3 digest of some bytes as 64 lower-case hexadecimal digits. -/
def blake3 (bytes : ByteArray) : String :=
  String.ofList ((Blake3.words bytes).toList.flatMap Blake3.hexWord)

end Bindery.Digest
