/-! Binary64 values read as exact numbers. A finite value is a sign and a dyadic
magnitude; every later rounding works on that magnitude in exact integer arithmetic. -/
namespace MolecularTools.Decimal

/-- The magnitude `mantissa · 2 ^ exponent`. -/
structure Dyadic where
  mantissa : Nat
  exponent : Int
deriving DecidableEq, Repr

namespace Dyadic

/-- Numerator of the magnitude as a fraction. -/
def num (d : Dyadic) : Nat := d.mantissa * Nat.pow 2 d.exponent.toNat

/-- Denominator of the magnitude as a fraction; a power of two. -/
def den (d : Dyadic) : Nat := Nat.pow 2 (-d.exponent).toNat

theorem den_pos (d : Dyadic) : 0 < d.den := Nat.two_pow_pos _

theorem num_eq_zero {d : Dyadic} : d.num = 0 ↔ d.mantissa = 0 := by
  rw [num, Nat.mul_eq_zero, Nat.pow_eq]
  simp

end Dyadic

/-- What a binary64 bit pattern stands for. -/
inductive Reading where
  | nan
  | infinite (negative : Bool)
  | finite (negative : Bool) (size : Dyadic)
deriving DecidableEq, Repr

/-- Sign bit, eleven exponent bits and fifty-two fraction bits. -/
def readBits (bits : Nat) : Reading :=
  let negative := decide (bits / Nat.pow 2 63 % 2 = 1)
  let exponent := bits / Nat.pow 2 52 % Nat.pow 2 11
  let fraction := bits % Nat.pow 2 52
  if exponent = 2047 then
    if fraction = 0 then .infinite negative else .nan
  else if exponent = 0 then .finite negative { mantissa := fraction, exponent := -1074 }
  else
    let mantissa := Nat.pow 2 52 + fraction
    .finite negative { mantissa, exponent := Int.ofNat exponent - 1075 }

def read (x : Float) : Reading := readBits x.toBits.toNat

end MolecularTools.Decimal
