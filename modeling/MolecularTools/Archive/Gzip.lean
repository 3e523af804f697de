import MolecularTools.Archive.Crc32
import MolecularTools.Archive.Inflate
import MolecularTools.Archive.Source

/-! Gzip: deflated data between a header and a trailer. Only the first member of a file
counts. Decoding goes as far as it can, so a fault stands behind what was decoded before it. -/
namespace MolecularTools.Archive.Gzip

def malformed (what : String) : IoError := .malformed ("invalid gzip " ++ what)

/-- A byte of the data. -/
def byte (data : ByteArray) (i : Nat) : Except IoError Nat :=
  if h : i < data.size then .ok data[i].toNat else .error (malformed "header")

/-- Flags of the header. -/
def hasChecksum (flags : Nat) : Bool := flags.testBit 1
def hasExtra (flags : Nat) : Bool := flags.testBit 2
def hasName (flags : Nat) : Bool := flags.testBit 3
def hasComment (flags : Nat) : Bool := flags.testBit 4
def hasReserved (flags : Nat) : Bool := 0x20 ≤ flags

/-- Longest field of a header. -/
def fieldBound : Nat := 65535

/-- The place behind a text that ends with a zero. -/
def skipText (data : ByteArray) : Nat → Nat → Except IoError Nat
  | 0, _ => .error (malformed "header")
  | fuel + 1, i => do if (← byte data i) = 0 then .ok (i + 1) else skipText data fuel (i + 1)

/-- The place behind the header. -/
def skipHeader (data : ByteArray) : Except IoError Nat := do
  if (← byte data 0) ≠ 0x1f || (← byte data 1) ≠ 0x8b then throw (malformed "header")
  let _ ← byte data 9
  if (← byte data 2) ≠ 8 then throw (malformed "header")
  let flags ← byte data 3
  if hasReserved flags then throw (malformed "header")
  let mut i := 10
  if hasExtra flags then
    let length := (← byte data i) + 256 * (← byte data (i + 1))
    i := i + 2 + length
    if data.size < i then throw (malformed "header")
  if hasName flags then i ← skipText data (fieldBound + 1) i
  if hasComment flags then i ← skipText data (fieldBound + 1) i
  if hasChecksum flags then
    let given := (← byte data i) + 256 * (← byte data (i + 1))
    if given ≠ (crc32 (data.extract 0 i)).toNat % 65536 then throw (malformed "header checksum")
    i := i + 2
  return i

def littleEndian (data : ByteArray) (i n : Nat) : Nat :=
  ((data.extract i (i + n)).toList.foldr fun b v => b.toNat + 256 * v) 0

/-- Whether the eight bytes at a place are the checksum and the length of the output. -/
def checkTrailer (data : ByteArray) (i : Nat) (out : ByteArray) : Option IoError :=
  if data.size < i + 8 then some (malformed "trailer")
  else if littleEndian data i 4 ≠ (crc32 out).toNat then some (malformed "checksum")
  else if littleEndian data (i + 4) 4 ≠ out.size % Nat.pow 2 32 then some (malformed "length")
  else none

/-- Bytes that are decoded before any of them is handed on. -/
def window : Nat := 32768

/-- Decodes the first member. What shares a window with something that cannot be decoded is
lost; where the data just ends, all decoded bytes are kept. -/
def decode (data : ByteArray) : Source :=
  match skipHeader data with
  | .error e => { bytes := .empty, fault := some { error := e } }
  | .ok start => match Inflate.inflate data start with
    | (out, .ok i) =>
      { bytes := out
        fault := (checkTrailer data ((i + 7) / 8) out).map fun e => { error := e } }
    | (out, .error .ended) =>
      { bytes := out, fault := some { error := malformed "data" } }
    | (out, .error .corrupt) =>
      { bytes := out.extract 0 ((out.size - 1) / window * window)
        fault := some { error := malformed "data", abrupt := true } }

end MolecularTools.Archive.Gzip
