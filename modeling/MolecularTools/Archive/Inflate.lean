import MolecularTools.Archive.PrefixCode

/-! Inflating: undoing the compression of the deflate format. Data is a sequence of blocks, each
stored as it is or coded in literals and in references to what came before. -/
namespace MolecularTools.Archive.Inflate

/-- What came out so far, and how it goes on: the place behind what was read, or the reason to
stop. -/
abbrev Outcome := ByteArray × Except Halt Nat

/-- Base and extra bits of the lengths coded by the symbols from 257. -/
def lengthCodes : Array (Nat × Nat) :=
  #[(3, 0), (4, 0), (5, 0), (6, 0), (7, 0), (8, 0), (9, 0), (10, 0), (11, 1), (13, 1), (15, 1),
    (17, 1), (19, 2), (23, 2), (27, 2), (31, 2), (35, 3), (43, 3), (51, 3), (59, 3), (67, 4),
    (83, 4), (99, 4), (115, 4), (131, 5), (163, 5), (195, 5), (227, 5), (258, 0)]

/-- Base and extra bits of distances. -/
def distanceCodes : Array (Nat × Nat) :=
  #[(1, 0), (2, 0), (3, 0), (4, 0), (5, 1), (7, 1), (9, 2), (13, 2), (17, 3), (25, 3), (33, 4),
    (49, 4), (65, 5), (97, 5), (129, 6), (193, 6), (257, 7), (385, 7), (513, 8), (769, 8),
    (1025, 9), (1537, 9), (2049, 10), (3073, 10), (4097, 11), (6145, 11), (8193, 12), (12289, 12),
    (16385, 13), (24577, 13)]

def endOfBlock : Nat := 256

/-- A value from a table of bases and extra bits. -/
def readExtended (data : ByteArray) (table : Array (Nat × Nat)) (k i : Nat) :
    Except Halt (Nat × Nat) :=
  match table[k]? with
  | none => .error .corrupt
  | some (base, extra) => do
    let (v, i) ← readBits data extra i
    .ok (base + v, i)

/-- Repeats `n` bytes from a distance back. What lies before the start counts as zeros. -/
def copyBack (distance : Nat) : Nat → ByteArray → ByteArray
  | 0, out => out
  | n + 1, out =>
    let b := if distance ≤ out.size then out.data.getD (out.size - distance) 0 else 0
    copyBack distance n (out.push b)

/-- Reads a reference whose length has the symbol `s`: its length and its distance. -/
def readReference (data : ByteArray) (distances : PrefixCode) (s i : Nat) :
    Except Halt (Nat × Nat × Nat) := do
  let (length, i) ← readExtended data lengthCodes (s - endOfBlock - 1) i
  let (d, i) ← distances.decode data i
  let (distance, i) ← readExtended data distanceCodes d i
  .ok (length, distance, i)

/-- Decodes symbols up to the end of the block. -/
def symbols (data : ByteArray) (literals distances : PrefixCode) :
    Nat → ByteArray → Nat → Outcome
  | 0, out, _ => (out, .error .ended)
  | fuel + 1, out, i => match literals.decode data i with
    | .error h => (out, .error h)
    | .ok (s, i) =>
      if s < endOfBlock then symbols data literals distances fuel (out.push s.toUInt8) i
      else if s = endOfBlock then (out, .ok i)
      else match readReference data distances s i with
        | .error h => (out, .error h)
        | .ok (length, distance, i) =>
          symbols data literals distances fuel (copyBack distance length out) i

/-- A stored block begins at a whole byte with its length, and with the length's complement. -/
def stored (data out : ByteArray) (i : Nat) : Outcome :=
  let header : Except Halt (Nat × Nat) := do
    let (length, i) ← readBits data 16 (8 * ((i + 7) / 8))
    let (complement, i) ← readBits data 16 i
    if length + complement = 0xFFFF then .ok (length, i / 8) else .error .corrupt
  match header with
  | .error h => (out, .error h)
  | .ok (length, start) =>
    let out := out ++ data.extract start (start + length)
    if start + length ≤ data.size then (out, .ok (8 * (start + length)))
    else (out, .error .ended)

def fixedLiterals : PrefixCode := .ofLengths
  (List.replicate 144 8 ++ List.replicate 112 9 ++ List.replicate 24 7 ++ List.replicate 8 8)

def fixedDistances : PrefixCode := .ofLengths (List.replicate 32 5)

/-- The order in which the lengths for the code of lengths are given. -/
def lengthOrder : List Nat := [16, 17, 18, 0, 8, 7, 9, 6, 10, 5, 11, 4, 12, 3, 13, 2, 14, 1, 15]

/-- Reads `n` numbers of three bits. -/
def readTriples (data : ByteArray) : Nat → Nat → Except Halt (List Nat × Nat)
  | 0, i => .ok ([], i)
  | n + 1, i => do
    let (v, i) ← readBits data 3 i
    let (vs, i) ← readTriples data n i
    .ok (v :: vs, i)

/-- Reads lengths until there are `total` of them; `done` holds the last one first. The symbols
past 15 repeat the last length or zero. -/
def readLengths (data : ByteArray) (code : PrefixCode) (total : Nat) :
    Nat → List Nat → Nat → Except Halt (List Nat × Nat)
  | 0, _, _ => .error .corrupt
  | fuel + 1, done, i =>
    if done.length = total then .ok (done.reverse, i)
    else if total < done.length then .error .corrupt
    else do
      let (s, i) ← code.decode data i
      match s, done with
      | 16, [] => .error .corrupt
      | 16, last :: _ =>
        let (n, i) ← readBits data 2 i
        readLengths data code total fuel (List.replicate (3 + n) last ++ done) i
      | 17, _ =>
        let (n, i) ← readBits data 3 i
        readLengths data code total fuel (List.replicate (3 + n) 0 ++ done) i
      | 18, _ =>
        let (n, i) ← readBits data 7 i
        readLengths data code total fuel (List.replicate (11 + n) 0 ++ done) i
      | s, _ => readLengths data code total fuel (s :: done) i

/-- Reads the two codes of a block that brings its own. -/
def readCodes (data : ByteArray) (i : Nat) : Except Halt (PrefixCode × PrefixCode × Nat) := do
  let (l, i) ← readBits data 5 i
  let (d, i) ← readBits data 5 i
  let (n, i) ← readBits data 4 i
  let literals := 257 + l
  let distances := 1 + d
  if 286 < literals || 30 < distances then throw .corrupt
  let (given, i) ← readTriples data (4 + n) i
  let lengths := (List.range 19).map fun s =>
    ((lengthOrder.zip given).find? fun p => p.1 = s).elim 0 (·.2)
  let code := PrefixCode.ofLengths lengths
  if !code.isComplete then throw .corrupt
  let total := literals + distances
  let (lengths, i) ← readLengths data code total (total + 1) [] i
  let first := PrefixCode.ofLengths (lengths.take literals)
  let second := PrefixCode.ofLengths (lengths.drop literals)
  if !first.isUsable || !second.isUsable then throw .corrupt
  .ok (first, second, i)

/-- Decodes one block behind its header. -/
def block (data : ByteArray) (kind : Nat) (out : ByteArray) (i : Nat) : Outcome :=
  let fuel := 8 * data.size + 1
  match kind with
  | 0 => stored data out i
  | 1 => symbols data fixedLiterals fixedDistances fuel out i
  | 2 => match readCodes data i with
    | .error h => (out, .error h)
    | .ok (literals, distances, i) => symbols data literals distances fuel out i
  | _ => (out, .error .corrupt)

/-- Decodes blocks up to the last. -/
def blocks (data : ByteArray) : Nat → ByteArray → Nat → Outcome
  | 0, out, _ => (out, .error .ended)
  | fuel + 1, out, i =>
    match readBits data 1 i >>= fun (last, i) => do
      let (kind, i) ← readBits data 2 i
      .ok (last, kind, i) with
    | .error h => (out, .error h)
    | .ok (last, kind, i) => match block data kind out i with
      | (out, .error h) => (out, .error h)
      | (out, .ok i) => if last = 1 then (out, .ok i) else blocks data fuel out i

/-- Inflates data from the byte `start` on. Each block and each symbol takes at least one bit,
so there are no more of them than bits. -/
def inflate (data : ByteArray) (start : Nat) : Outcome :=
  blocks data (8 * data.size + 1) .empty (8 * start)

end MolecularTools.Archive.Inflate
