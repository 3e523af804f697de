import MolecularTools.Text.Blank
import MolecularTools.Text.Lossy
import MolecularTools.Text.Number

/-! Headers of archive members: blocks of five hundred and twelve bytes with fields at fixed
places. Texts end at a zero byte, numbers are written in octal digits or, marked by their first
bit, in binary. -/
namespace MolecularTools.Archive

def blockSize : Nat := 512

/-- A header block. -/
structure Header where
  bytes : ByteArray

namespace Header

def field (h : Header) (start length : Nat) : ByteArray := h.bytes.extract start (start + length)

/-- The bytes in front of the first zero. -/
def beforeZero (b : ByteArray) : ByteArray :=
  ⟨(b.toList.takeWhile (· ≠ 0)).toArray⟩

/-- Whether a block holds zeros only. -/
def isBlank (h : Header) : Bool := h.bytes.toList.all (· = 0)

/-- An octal number between blanks. -/
def octal? (b : ByteArray) : Option Nat := do
  let s ← String.fromUTF8? (beforeZero b)
  Text.number? 8 (Text.trim s.toList)

/-- The last eight bytes as a binary number. -/
def binary (b : ByteArray) : Nat :=
  (b.extract (b.size - 8) b.size).toList.foldl (fun n x => 256 * n + x.toNat) 0

def size? (h : Header) : Option Nat :=
  let f := h.field 124 12
  if f.data.getD 0 0 ≥ 0x80 then some (binary f) else octal? f

def mode? (h : Header) : Option Nat := octal? (h.field 100 8)

def kind (h : Header) : Char := Char.ofNat (h.bytes.data.getD 156 0).toNat

/-- The sum of all bytes, with blanks in place of the sum itself. -/
def sum (h : Header) : Nat :=
  let total (b : ByteArray) : Nat := b.toList.foldl (fun n x => n + x.toNat) 0
  total (h.field 0 148) + 8 * 32 + total (h.field 156 356)

/-- Whether the header carries its own sum. -/
def isSound (h : Header) : Bool := (octal? (h.field 148 8)).map (· % Nat.pow 2 32) = some h.sum

def magic (h : Header) : List UInt8 := (h.field 257 8).toList

/-- The form with a field for the front part of the path. -/
def isUstar (h : Header) : Bool := h.magic = "ustar\x0000".toUTF8.toList

def isGnu (h : Header) : Bool := h.magic = "ustar  \x00".toUTF8.toList

def path (h : Header) : ByteArray :=
  let name := beforeZero (h.field 0 100)
  let front := beforeZero (h.field 345 155)
  if h.isUstar && front.size ≠ 0 then front ++ "/".toUTF8 ++ name else name

def linkPath? (h : Header) : Option ByteArray :=
  let f := beforeZero (h.field 157 100)
  if f.size = 0 then none else some f

end Header

end MolecularTools.Archive
