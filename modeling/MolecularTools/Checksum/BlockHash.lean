/-! Hash functions that chain a compression over blocks of sixty-four bytes. Data may
arrive in pieces: full blocks are compressed at once and the rest waits for the next piece.
The last blocks carry a one bit, zeros, and the length of the data in bits. -/
namespace MolecularTools.Checksum

/-- A compression function with its start value and the byte order of lengths and output. -/
structure BlockHash where
  Chain : Type
  start : Chain
  /-- Compresses the block that begins at an offset of the data. -/
  compress : Chain → ByteArray → Nat → Chain
  /-- Eight bytes of a bit length. -/
  lengthBytes : Nat → List UInt8
  output : Chain → List UInt8

def blockSize : Nat := 64

namespace BlockHash

/-- Data hashed so far, cut into compressed blocks and a rest. -/
structure Progress (h : BlockHash) where
  chain : h.Chain
  pending : ByteArray
  length : Nat

def begin (h : BlockHash) : Progress h := ⟨h.start, .empty, 0⟩

/-- Compresses the first `n` blocks of the data. -/
def compressBlocks (h : BlockHash) (chain : h.Chain) (data : ByteArray) (n : Nat) : h.Chain :=
  n.fold (fun i _ c => h.compress c data (blockSize * i)) chain

def update (h : BlockHash) (p : Progress h) (piece : ByteArray) : Progress h :=
  let data := p.pending ++ piece
  let n := data.size / blockSize
  { chain := h.compressBlocks p.chain data n
    pending := data.extract (blockSize * n) data.size
    length := p.length + piece.size }

/-- What is appended to data of `length` bytes so that whole blocks result. -/
def padding (h : BlockHash) (length : Nat) : ByteArray :=
  let zeros := (blockSize + 55 - length % blockSize) % blockSize
  ⟨(0x80 :: List.replicate zeros 0 ++ h.lengthBytes (8 * length)).toArray⟩

def finish (h : BlockHash) (p : Progress h) : List UInt8 :=
  let data := p.pending ++ h.padding p.length
  h.output (h.compressBlocks p.chain data (data.size / blockSize))

/-- The hash of data that arrives in pieces. -/
def ofPieces (h : BlockHash) (pieces : List ByteArray) : List UInt8 :=
  h.finish (pieces.foldl h.update h.begin)

/-- The hash of data at hand: all of it is padded, then compressed. -/
def ofBytes (h : BlockHash) (data : ByteArray) : List UInt8 :=
  let padded := data ++ h.padding data.size
  h.output (h.compressBlocks h.start padded (padded.size / blockSize))

end BlockHash

/-- Byte `i` of the data, zero past its end. -/
def byteAt (data : ByteArray) (i : Nat) : UInt8 :=
  if h : i < data.size then data[i] else 0

/-- Eight bytes of `n`, lowest first. -/
def littleEndian (n : Nat) : List UInt8 :=
  (List.range 8).map fun i => UInt8.ofNat (n / Nat.pow 256 i)

def bigEndian (n : Nat) : List UInt8 := (littleEndian n).reverse

/-- The four bytes of a word, lowest first. -/
def wordBytes (w : UInt32) : List UInt8 :=
  [w.toUInt8, (w >>> 8).toUInt8, (w >>> 16).toUInt8, (w >>> 24).toUInt8]

def rotateLeft (w : UInt32) (n : UInt32) : UInt32 := (w <<< n) ||| (w >>> (32 - n))

def rotateRight (w : UInt32) (n : UInt32) : UInt32 := (w >>> n) ||| (w <<< (32 - n))

end MolecularTools.Checksum
