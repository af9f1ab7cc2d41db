/-!
# MD5

The message digest of sixteen bytes. A message is padded to whole blocks of 64 bytes; each block
turns a state of four words by 64 steps.
-/

namespace Interlock.Digest.Md5

/-- The state between two blocks. -/
structure State where
  a : UInt32
  b : UInt32
  c : UInt32
  d : UInt32
  deriving DecidableEq, Repr, Inhabited

def State.start : State := ⟨0x67452301, 0xefcdab89, 0x98badcfe, 0x10325476⟩

/-- The constant added in each step. -/
def constants : Array UInt32 := #[
  0xd76aa478, 0xe8c7b756, 0x242070db, 0xc1bdceee, 0xf57c0faf, 0x4787c62a, 0xa8304613, 0xfd469501,
  0x698098d8, 0x8b44f7af, 0xffff5bb1, 0x895cd7be, 0x6b901122, 0xfd987193, 0xa679438e, 0x49b40821,
  0xf61e2562, 0xc040b340, 0x265e5a51, 0xe9b6c7aa, 0xd62f105d, 0x02441453, 0xd8a1e681, 0xe7d3fbc8,
  0x21e1cde6, 0xc33707d6, 0xf4d50d87, 0x455a14ed, 0xa9e3e905, 0xfcefa3f8, 0x676f02d9, 0x8d2a4c8a,
  0xfffa3942, 0x8771f681, 0x6d9d6122, 0xfde5380c, 0xa4beea44, 0x4bdecfa9, 0xf6bb4b60, 0xbebfbc70,
  0x289b7ec6, 0xeaa127fa, 0xd4ef3085, 0x04881d05, 0xd9d4d039, 0xe6db99e5, 0x1fa27cf8, 0xc4ac5665,
  0xf4292244, 0x432aff97, 0xab9423a7, 0xfc93a039, 0x655b59c3, 0x8f0ccc92, 0xffeff47d, 0x85845dd1,
  0x6fa87e4f, 0xfe2ce6e0, 0xa3014314, 0x4e0811a1, 0xf7537e82, 0xbd3af235, 0x2ad7d2bb, 0xeb86d391]

/-- How far the sum is turned in each step. -/
def rotations : Array UInt32 := #[
  7, 12, 17, 22, 7, 12, 17, 22, 7, 12, 17, 22, 7, 12, 17, 22,
  5, 9, 14, 20, 5, 9, 14, 20, 5, 9, 14, 20, 5, 9, 14, 20,
  4, 11, 16, 23, 4, 11, 16, 23, 4, 11, 16, 23, 4, 11, 16, 23,
  6, 10, 15, 21, 6, 10, 15, 21, 6, 10, 15, 21, 6, 10, 15, 21]

def rotateLeft (x : UInt32) (n : UInt32) : UInt32 := (x <<< n) ||| (x >>> (32 - n))

/-- The mixing function of a step and the word of the block that it takes. -/
def mix (i : Nat) (s : State) : UInt32 × Nat :=
  if i < 16 then ((s.b &&& s.c) ||| (~~~s.b &&& s.d), i)
  else if i < 32 then ((s.d &&& s.b) ||| (~~~s.d &&& s.c), (5 * i + 1) % 16)
  else if i < 48 then (s.b ^^^ s.c ^^^ s.d, (3 * i + 5) % 16)
  else (s.c ^^^ (s.b ||| ~~~s.d), 7 * i % 16)

/-- One step on a block given as words. -/
def step (words : Array UInt32) (s : State) (i : Nat) : State :=
  let (f, g) := mix i s
  let sum := s.a + f + constants.getD i 0 + words.getD g 0
  ⟨s.d, s.b + rotateLeft sum (rotations.getD i 0), s.b, s.c⟩

/-- The words of a block, the least byte first. -/
def wordsOf : List UInt8 → List UInt32
  | a :: b :: c :: d :: rest =>
    (a.toUInt32 ||| b.toUInt32 <<< 8 ||| c.toUInt32 <<< 16 ||| d.toUInt32 <<< 24) :: wordsOf rest
  | _ => []

/-- All steps on one block of sixteen words. -/
def block (s : State) (words : Array UInt32) : State :=
  let t := (List.range 64).foldl (step words) s
  ⟨s.a + t.a, s.b + t.b, s.c + t.c, s.d + t.d⟩

/-- The bytes of a number, the least first. -/
def littleEndian (count : Nat) (n : Nat) : List UInt8 :=
  (List.range count).map fun i => (n / Nat.pow 256 i % 256).toUInt8

/-- A message with a mark, zeros up to 56 bytes beyond a block, and its length in bits. -/
def pad (message : List UInt8) : List UInt8 :=
  let zeros := (119 - message.length % 64) % 64
  message ++ 0x80 :: List.replicate zeros 0 ++ littleEndian 8 (8 * message.length % Nat.pow 2 64)

/-- The words of a message in blocks of sixteen. -/
def blocksOf (words : List UInt32) : List (Array UInt32) :=
  (List.range (words.length / 16)).map fun i => ((words.drop (16 * i)).take 16).toArray

/-- The digest of a message. -/
def digest (message : List UInt8) : List UInt8 :=
  let s := (blocksOf (wordsOf (pad message))).foldl block .start
  [s.a, s.b, s.c, s.d].flatMap fun w => littleEndian 4 w.toNat

/-- Two hexadecimal digits a byte. -/
def hex (bytes : List UInt8) : List Char :=
  bytes.flatMap fun b => [Nat.digitChar (b.toNat / 16), Nat.digitChar (b.toNat % 16)]

end Interlock.Digest.Md5
