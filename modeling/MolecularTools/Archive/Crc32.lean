/-! The checksum CRC-32: the remainder of the data by a polynomial, bits in reverse order. -/
namespace MolecularTools.Archive

def crcPolynomial : UInt32 := 0xEDB88320

def crcStep (c : UInt32) : UInt32 :=
  if c &&& 1 = 1 then (c >>> 1) ^^^ crcPolynomial else c >>> 1

def crcByte (c : UInt32) (b : UInt8) : UInt32 :=
  Nat.fold 8 (fun _ _ c => crcStep c) (c ^^^ b.toUInt32)

def crc32 (data : ByteArray) : UInt32 := ~~~(data.foldl crcByte 0xFFFFFFFF)

end MolecularTools.Archive
