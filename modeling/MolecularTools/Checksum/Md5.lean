import MolecularTools.Checksum.BlockHash

/-! MD5: sixty-four rounds on four little-endian words. -/
namespace MolecularTools.Checksum.Md5

/-- Round constants, the leading bits of the sine of the round number. -/
def constants : Array UInt32 :=
  #[
    0xd76aa478, 0xe8c7b756, 0x242070db, 0xc1bdceee, 0xf57c0faf, 0x4787c62a, 0xa8304613, 0xfd469501,
    0x698098d8, 0x8b44f7af, 0xffff5bb1, 0x895cd7be, 0x6b901122, 0xfd987193, 0xa679438e, 0x49b40821,
    0xf61e2562, 0xc040b340, 0x265e5a51, 0xe9b6c7aa, 0xd62f105d, 0x02441453, 0xd8a1e681, 0xe7d3fbc8,
    0x21e1cde6, 0xc33707d6, 0xf4d50d87, 0x455a14ed, 0xa9e3e905, 0xfcefa3f8, 0x676f02d9, 0x8d2a4c8a,
    0xfffa3942, 0x8771f681, 0x6d9d6122, 0xfde5380c, 0xa4beea44, 0x4bdecfa9, 0xf6bb4b60, 0xbebfbc70,
    0x289b7ec6, 0xeaa127fa, 0xd4ef3085, 0x04881d05, 0xd9d4d039, 0xe6db99e5, 0x1fa27cf8, 0xc4ac5665,
    0xf4292244, 0x432aff97, 0xab9423a7, 0xfc93a039, 0x655b59c3, 0x8f0ccc92, 0xffeff47d, 0x85845dd1,
    0x6fa87e4f, 0xfe2ce6e0, 0xa3014314, 0x4e0811a1, 0xf7537e82, 0xbd3af235, 0x2ad7d2bb, 0xeb86d391]

/-- Rotations of the four groups of rounds; each group repeats its four. -/
def rotations : Array UInt32 :=
  #[7, 12, 17, 22, 5, 9, 14, 20, 4, 11, 16, 23, 6, 10, 15, 21]

structure Words where
  a : UInt32
  b : UInt32
  c : UInt32
  d : UInt32
deriving DecidableEq, Repr

def start : Words := ⟨0x67452301, 0xefcdab89, 0x98badcfe, 0x10325476⟩

/-- Word `i` of the block at an offset. -/
def wordAt (data : ByteArray) (offset i : Nat) : UInt32 :=
  let byte (k : Nat) : UInt32 := (byteAt data (offset + 4 * i + k)).toUInt32
  byte 0 ||| (byte 1 <<< 8) ||| (byte 2 <<< 16) ||| (byte 3 <<< 24)

/-- The mixing function of round `i` and the number of the word it takes in. -/
def mix (i : Nat) (w : Words) : UInt32 × Nat :=
  if i < 16 then ((w.b &&& w.c) ||| (~~~w.b &&& w.d), i)
  else if i < 32 then ((w.d &&& w.b) ||| (~~~w.d &&& w.c), (5 * i + 1) % 16)
  else if i < 48 then (w.b ^^^ w.c ^^^ w.d, (3 * i + 5) % 16)
  else (w.c ^^^ (w.b ||| ~~~w.d), 7 * i % 16)

def round (data : ByteArray) (offset i : Nat) (w : Words) : Words :=
  let (f, k) := mix i w
  let sum := w.a + f + constants.getD i 0 + wordAt data offset k
  ⟨w.d, w.b + rotateLeft sum (rotations.getD (4 * (i / 16) + i % 4) 0), w.b, w.c⟩

def compress (w : Words) (data : ByteArray) (offset : Nat) : Words :=
  let r := Nat.fold 64 (fun i _ v => round data offset i v) w
  ⟨w.a + r.a, w.b + r.b, w.c + r.c, w.d + r.d⟩

def hash : BlockHash where
  Chain := Words
  start := start
  compress := compress
  lengthBytes := littleEndian
  output w := wordBytes w.a ++ wordBytes w.b ++ wordBytes w.c ++ wordBytes w.d

end MolecularTools.Checksum.Md5
