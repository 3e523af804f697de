/-! Scalars that a potential can be sampled over. The formulas of this library are written
once, over any type with these operations; programs use binary64. -/
namespace MolecularTools

class Scalar (α : Type) extends Add α, Sub α, Mul α, Div α, Neg α where
  ofNat : Nat → α
  /-- The comparison of energies; false as soon as an operand has no order. -/
  atMost : α → α → Bool

instance : Scalar Float where
  ofNat := Float.ofNat
  atMost a b := a ≤ b

end MolecularTools
