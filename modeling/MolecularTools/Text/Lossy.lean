/-! Text from any bytes. What is no UTF-8 is replaced: each longest start of a character that
does not go on as it should counts as one error. -/
namespace MolecularTools.Text

def replacement : Char := Char.ofNat 0xFFFD

/-- The bounds of the second byte behind a first byte, and how many bytes follow the first. -/
def following? (b : Nat) : Option (Nat × Nat × Nat) :=
  if b < 0xC2 then none
  else if b < 0xE0 then some (0x80, 0xBF, 1)
  else if b = 0xE0 then some (0xA0, 0xBF, 2)
  else if b = 0xED then some (0x80, 0x9F, 2)
  else if b < 0xF0 then some (0x80, 0xBF, 2)
  else if b = 0xF0 then some (0x90, 0xBF, 3)
  else if b < 0xF4 then some (0x80, 0xBF, 3)
  else if b = 0xF4 then some (0x80, 0x8F, 3)
  else none

/-- Takes up to `n` bytes that go on a character, the first between the bounds given. -/
def continued : Nat → Nat → Nat → Nat → List UInt8 → Option Nat × List UInt8
  | 0, _, _, value, rest => (some value, rest)
  | _ + 1, _, _, _, [] => (none, [])
  | n + 1, low, high, value, b :: rest =>
    if low ≤ b.toNat ∧ b.toNat ≤ high then
      continued n 0x80 0xBF (64 * value + b.toNat % 64) rest
    else (none, b :: rest)

/-- The value bits of a first byte that `n` bytes follow. -/
def leadingBits (b n : Nat) : Nat := b % Nat.pow 2 (6 - n)

/-- The first character and the bytes behind it. -/
def nextChar (b : UInt8) (rest : List UInt8) : Char × List UInt8 :=
  if b.toNat < 0x80 then (Char.ofNat b.toNat, rest)
  else match following? b.toNat with
    | none => (replacement, rest)
    | some (low, high, n) => match continued n low high (leadingBits b.toNat n) rest with
      | (some value, rest) => (Char.ofNat value, rest)
      | (none, rest) => (replacement, rest)

/-- Reads at most `fuel` characters. -/
def lossyWithin : Nat → List UInt8 → List Char
  | 0, _ => []
  | _ + 1, [] => []
  | fuel + 1, b :: rest =>
    let (c, rest) := nextChar b rest
    c :: lossyWithin fuel rest

/-- The text of some bytes; there are no more characters than bytes. -/
def lossy (bytes : ByteArray) : String :=
  match String.fromUTF8? bytes with
  | some s => s
  | none => String.ofList (lossyWithin bytes.size bytes.toList)

end MolecularTools.Text
