import MolecularTools.Failure

/-! Byte streams: the successive reads of a file or a transfer, ended by its end or by an
error. How the bytes are cut into reads is part of a stream, so that what does not depend on
it can be said. -/
namespace MolecularTools

structure Stream where
  /-- What each read delivers. -/
  chunks : List ByteArray := []
  /-- The error that follows the last chunk, if the stream breaks off. -/
  broken : Option IoError := none

namespace Stream

/-- All bytes that the stream delivers. -/
def bytes (s : Stream) : ByteArray := s.chunks.foldl (· ++ ·) .empty

/-- A stream that delivers everything in one read. -/
def whole (bytes : ByteArray) : Stream :=
  { chunks := if bytes.size = 0 then [] else [bytes] }

/-- A stream whose first read fails. -/
def failing (e : IoError) : Stream := { broken := some e }

/-- Splits off the first `n` bytes, however they are cut into chunks. -/
def splitChunks : Nat → List ByteArray → ByteArray × List ByteArray
  | _, [] => (.empty, [])
  | n, c :: cs =>
    if n = 0 then (.empty, c :: cs)
    else if c.size ≤ n then
      let (front, rest) := splitChunks (n - c.size) cs
      (c ++ front, rest)
    else (c.extract 0 n, c.extract n c.size :: cs)

/-- The first `n` bytes, or all if there are fewer, and the stream of those behind them.
Fewer bytes than wanted are only delivered if the stream ends without an error. -/
def take (s : Stream) (n : Nat) : Except IoError (ByteArray × Stream) :=
  let (front, rest) := splitChunks n s.chunks
  match s.broken with
  | some e => if front.size < n then .error e else .ok (front, { s with chunks := rest })
  | none => .ok (front, { s with chunks := rest })

/-- Everything up to the end. -/
def readAll (s : Stream) : Except IoError ByteArray :=
  match s.broken with
  | some e => .error e
  | none => .ok s.bytes

end Stream

end MolecularTools
