import MolecularTools.Task

/-! Writers and sinks. A writer takes bytes in the state of some task; a sink is a writer's
state with a limited room, which may take a write in several portions. -/
namespace MolecularTools

/-- Takes bytes one write after the other, each whole or with a failure. -/
structure Writer (σ : Type) where
  write : ByteArray → Task σ Unit
  flush : Task σ Unit

/-- Collects bytes until its room is used up. -/
structure Sink where
  held : ByteArray := .empty
  /-- Bytes still accepted; without a number, all. -/
  room : Option Nat := none
  /-- Most bytes taken by each single request; at least one is always taken. -/
  pace : Option (Nat → Nat) := none
  /-- Requests so far. -/
  requests : Nat := 0
  flushFails : Bool := false

namespace Sink

/-- How many of `n` offered bytes the next request takes. -/
def portion (s : Sink) (n : Nat) : Nat :=
  let paced := match s.pace with
    | some f => min n (max 1 (f s.requests))
    | none => n
  match s.room with
  | some r => min paced r
  | none => paced

/-- Takes the first bytes offered and tells how many. -/
def accept (bytes : ByteArray) : Task Sink Nat := fun s =>
  let n := s.portion bytes.size
  if n = 0 then (.error (.ofIo .noSpace), s)
  else
    (.ok n, { s with
      held := s.held ++ bytes.extract 0 n
      room := s.room.map (· - n)
      requests := s.requests + 1 })

/-- Offers the rest of the bytes again after each portion. Each portion is at least one byte,
so as many requests as there are bytes suffice. -/
def writeWithin : Nat → ByteArray → Task Sink Unit
  | 0, _ => pure ()
  | fuel + 1, bytes =>
    if bytes.size = 0 then pure ()
    else do
      let n ← accept bytes
      writeWithin fuel (bytes.extract n bytes.size)

def writeAll (bytes : ByteArray) : Task Sink Unit := writeWithin bytes.size bytes

def flush : Task Sink Unit := fun s =>
  (if s.flushFails then .error (.ofIo .io) else .ok (), s)

def writer : Writer Sink where
  write := writeAll
  flush := flush

end Sink

end MolecularTools
