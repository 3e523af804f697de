import MolecularTools.Stream

/-! What an archive is read from: bytes at hand, and how reading goes on behind them. -/
namespace MolecularTools.Archive

/-- An error that stands behind the readable bytes. -/
structure Fault where
  error : IoError
  /-- A read that would reach the error brings nothing, not even the bytes in front of it. -/
  abrupt : Bool := false

structure Source where
  bytes : ByteArray
  fault : Option Fault := none

namespace Source

def ofStream (s : Stream) : Source where
  bytes := s.bytes
  fault := s.broken.map fun e => { error := e }

/-- What ends a read that wants more than there is. -/
def shortage (s : Source) : Option IoError := s.fault.map (·.error)

/-- Bytes that a file is copied by at a time. -/
def pieceSize : Nat := 8192

/-- How many of `n` bytes from a place on can be copied. In front of an abrupt fault only whole
pieces can. -/
def copyable (s : Source) (start n : Nat) : Nat :=
  let left := s.bytes.size - start
  if n ≤ left then n
  else match s.fault with
    | some f => if f.abrupt then left / pieceSize * pieceSize else left
    | none => left

/-- The bytes that can be copied out of `n` from a place on. -/
def content (s : Source) (start n : Nat) : ByteArray :=
  s.bytes.extract start (start + s.copyable start n)

end Source

end MolecularTools.Archive
