-- MD5, as `hashlib.md5` computes it: blocks of 16 little-endian words, each
-- mixed into four words of state in 64 rounds.
import Mathlib.Data.List.Defs
import Mathlib.Data.List.Basic

namespace dr_boz.md5

structure Digest where
  a : UInt32
  b : UInt32
  c : UInt32
  d : UInt32
deriving DecidableEq, Repr

def initial : Digest := ⟨0x67452301, 0xefcdab89, 0x98badcfe, 0x10325476⟩

/-- `floor(abs(sin(i + 1)) * 2**32)` -/
def sines : List UInt32 :=
  [0xd76aa478, 0xe8c7b756, 0x242070db, 0xc1bdceee, 0xf57c0faf, 0x4787c62a,
    0xa8304613, 0xfd469501, 0x698098d8, 0x8b44f7af, 0xffff5bb1, 0x895cd7be,
    0x6b901122, 0xfd987193, 0xa679438e, 0x49b40821, 0xf61e2562, 0xc040b340,
    0x265e5a51, 0xe9b6c7aa, 0xd62f105d, 0x02441453, 0xd8a1e681, 0xe7d3fbc8,
    0x21e1cde6, 0xc33707d6, 0xf4d50d87, 0x455a14ed, 0xa9e3e905, 0xfcefa3f8,
    0x676f02d9, 0x8d2a4c8a, 0xfffa3942, 0x8771f681, 0x6d9d6122, 0xfde5380c,
    0xa4beea44, 0x4bdecfa9, 0xf6bb4b60, 0xbebfbc70, 0x289b7ec6, 0xeaa127fa,
    0xd4ef3085, 0x04881d05, 0xd9d4d039, 0xe6db99e5, 0x1fa27cf8, 0xc4ac5665,
    0xf4292244, 0x432aff97, 0xab9423a7, 0xfc93a039, 0x655b59c3, 0x8f0ccc92,
    0xffeff47d, 0x85845dd1, 0x6fa87e4f, 0xfe2ce6e0, 0xa3014314, 0x4e0811a1,
    0xf7537e82, 0xbd3af235, 0x2ad7d2bb, 0xeb86d391]

/-- How far each round rotates: four amounts for each group of 16 rounds. -/
def shifts : List (List UInt32) :=
  [[7, 12, 17, 22], [5, 9, 14, 20], [4, 11, 16, 23], [6, 10, 15, 21]]

def rotate_left (x n : UInt32) : UInt32 := (x <<< n) ||| (x >>> (32 - n))

/-- The mix of round `i`, and the word of the block that it takes. -/
def mix (i : Nat) (s : Digest) : UInt32 × Nat :=
  match i / 16 with
  | 0 => ((s.b &&& s.c) ||| (~~~s.b &&& s.d), i)
  | 1 => ((s.d &&& s.b) ||| (~~~s.d &&& s.c), (5 * i + 1) % 16)
  | 2 => (s.b ^^^ s.c ^^^ s.d, (3 * i + 5) % 16)
  | _ => (s.c ^^^ (s.b ||| ~~~s.d), (7 * i) % 16)

def round (block : List UInt32) (s : Digest) (i : Nat) : Digest :=
  let (f, g) := mix i s
  let sum := s.a + f + sines.getD i 0 + block.getD g 0
  let shift := (shifts.getD (i / 16) []).getD (i % 4) 0
  ⟨s.d, s.b + rotate_left sum shift, s.b, s.c⟩

def digest_block (s : Digest) (block : List UInt32) : Digest :=
  let t := (List.range 64).foldl (round block) s
  ⟨s.a + t.a, s.b + t.b, s.c + t.c, s.d + t.d⟩

/-- The bytes of a number, the lowest first. -/
def little_endian : Nat → Nat → List UInt8
  | 0, _ => []
  | n + 1, x => UInt8.ofNat x :: little_endian n (x / 256)

/-- The message with its padding, whose length is a multiple of 64. -/
def padded (message : List UInt8) : List UInt8 :=
  message ++ 0x80 :: List.replicate ((119 - message.length % 64) % 64) 0 ++
    little_endian 8 (8 * message.length)

/-- Four bytes each, the lowest first. -/
def words : List UInt8 → List UInt32
  | a :: b :: c :: d :: rest =>
    (a.toUInt32 ||| (b.toUInt32 <<< 8) ||| (c.toUInt32 <<< 16) ||| (d.toUInt32 <<< 24)) ::
      words rest
  | _ => []

def digest_of (message : List UInt8) : List UInt8 :=
  let s := ((words (padded message)).toChunks 16).foldl digest_block initial
  [s.a, s.b, s.c, s.d].flatMap fun w => little_endian 4 w.toNat

example : digest_of [] = [0xd4, 0x1d, 0x8c, 0xd9, 0x8f, 0x00, 0xb2, 0x04, 0xe9, 0x80, 0x09, 0x98,
    0xec, 0xf8, 0x42, 0x7e] := by
  decide +kernel

end dr_boz.md5
