import MolecularTools.Decimal.Binary64

/-! Decimal rounding of exact magnitudes. `scaled` rounds to a power of ten that the
caller names, `significant` to a number of leading digits; both go to the nearest
neighbour and, from the middle, to the even one. -/
namespace MolecularTools.Decimal

/-- The quotient rounded to the nearest natural number, a half to the even neighbour. -/
def roundQuotient (num den : Nat) : Nat :=
  let q := num / den
  let twice := 2 * (num % den)
  if twice < den then q else if den < twice then q + 1 else q + q % 2

/-- The magnitude times `10 ^ places`, rounded. -/
def scaled (d : Dyadic) (places : Int) : Nat :=
  roundQuotient (d.num * Nat.pow 10 places.toNat) (d.den * Nat.pow 10 (-places).toNat)

/-- Digits of `n` counted with at most `fuel` divisions. -/
def digitsWithin : Nat → Nat → Nat
  | 0, _ => 0
  | fuel + 1, n => if n = 0 then 0 else digitsWithin fuel (n / 10) + 1

/-- How many decimal digits `n` has; zero has none. -/
def digitCount (n : Nat) : Nat := digitsWithin (n.log2 + 1) n

/-- The exponent of the leading decimal digit of a positive magnitude. -/
def leadingExponent (d : Dyadic) : Int :=
  if d.den ≤ d.num then (digitCount (d.num / d.den) : Int) - 1
  else -(digitCount ((d.den - 1) / d.num) : Int)

/-- A magnitude rounded to leading digits: `digits · 10 ^ (exponent + 1 - precision)`. -/
structure Significant where
  digits : Nat
  exponent : Int
deriving DecidableEq, Repr

/-- Rounds to `precision` leading digits. Rounding up to the next power of ten moves the
exponent with it. -/
def significant (d : Dyadic) (precision : Nat) : Significant :=
  let exponent := leadingExponent d
  let digits := scaled d (precision - 1 - exponent)
  if digits = Nat.pow 10 precision then ⟨Nat.pow 10 (precision - 1), exponent + 1⟩
  else ⟨digits, exponent⟩

end MolecularTools.Decimal
