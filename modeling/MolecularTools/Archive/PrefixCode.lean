/-! Prefix codes given by the lengths of their code words. Shorter words come first, and words of
one length follow the order of the symbols. -/
namespace MolecularTools.Archive

/-- Why decoding stops early. -/
inductive Halt where
  /-- The data ended. -/
  | ended
  /-- The data cannot be decoded. -/
  | corrupt
deriving DecidableEq, Repr

/-- A bit of the data, the lowest bit of each byte first. -/
def bitAt (data : ByteArray) (i : Nat) : Option Nat :=
  if h : i / 8 < data.size then some ((data[i / 8].toNat >>> (i % 8)) % 2) else none

/-- A number of `n` bits, lowest first, and the place behind it. -/
def readBits (data : ByteArray) : Nat → Nat → Except Halt (Nat × Nat)
  | 0, i => .ok (0, i)
  | n + 1, i => match bitAt data i with
    | none => .error .ended
    | some b => do
      let (v, i) ← readBits data n (i + 1)
      .ok (b + 2 * v, i)

/-- Longest code word. -/
def longestWord : Nat := 15

structure PrefixCode where
  /-- How many words there are of each length. -/
  counts : Array Nat
  /-- The symbols in the order of their words. -/
  symbols : Array Nat

namespace PrefixCode

/-- The code of symbols with these lengths; length zero is no word. -/
def ofLengths (lengths : List Nat) : PrefixCode where
  counts := ((List.range (longestWord + 1)).map fun n =>
    if n = 0 then 0 else lengths.count n).toArray
  symbols := ((List.range (longestWord + 1)).flatMap fun n =>
    if n = 0 then []
    else (lengths.zipIdx.filter fun p => p.1 = n).map (·.2)).toArray

/-- Whether every sequence of bits begins with a word, and with only one. -/
def isComplete (c : PrefixCode) : Bool :=
  (List.range (longestWord + 1)).foldl
    (fun n k => n + c.counts.getD k 0 * Nat.pow 2 (longestWord - k)) 0 = Nat.pow 2 longestWord

/-- A single word, or none, is no complete code and still can be used. -/
def isUsable (c : PrefixCode) : Bool := c.isComplete || c.symbols.size ≤ 1

/-- Goes on with a word that begins with the bits of `word`. Of the words one bit longer, the
first is `2 * first` and its symbol has the number `index`. -/
def decodeFrom (c : PrefixCode) (data : ByteArray) :
    Nat → Nat → Nat → Nat → Nat → Except Halt (Nat × Nat)
  | 0, _, _, _, _ => .error .corrupt
  | more + 1, word, first, index, i => match bitAt data i with
    | none => .error .ended
    | some b =>
      let word := 2 * word + b
      let first := 2 * first
      let count := c.counts.getD (longestWord - more) 0
      if word < first + count then .ok (c.symbols.getD (index + (word - first)) 0, i + 1)
      else decodeFrom c data more word (first + count) (index + count) (i + 1)

/-- The next symbol and the place behind it. -/
def decode (c : PrefixCode) (data : ByteArray) (i : Nat) : Except Halt (Nat × Nat) :=
  c.decodeFrom data longestWord 0 0 0 i

end PrefixCode

end MolecularTools.Archive
