import MolecularTools.Table.Scalar

/-! Angle potentials: an energy and a force as functions of an angle in degrees. The
force is the negative derivative of the energy by the angle, given in closed form or taken
as a central difference. -/
namespace MolecularTools

structure Potential (α : Type) where
  energy : α → α
  force : α → α

namespace Potential

variable {α : Type} [Scalar α]

/-- How far `θ` lies from `center`, turned into radians by the factor `degree`. -/
def displacement (degree center θ : α) : α := (θ - center) * degree

/-- The harmonic angle `k (θ - θ₀)²`, with `k` in energy per squared radian. The derivative
is turned back into energy per degree. -/
def harmonic (degree k center : α) : Potential α where
  energy θ := k * displacement degree center θ * displacement degree center θ
  force θ := -Scalar.ofNat 2 * k * displacement degree center θ * degree

/-- The force as a central difference of the energy. -/
def difference (step : α) (energy : α → α) (θ : α) : α :=
  -(energy (θ + step) - energy (θ - step)) / (Scalar.ofNat 2 * step)

end Potential

/-- One degree in radians. -/
def degree : Float := 3.141592653589793 / 180.0

/-- Step of the central difference in degrees. -/
def differenceStep : Float := 1.0e-6

/-- The harmonic angle over binary64, in degrees. -/
def Potential.harmonicAngle (k center : Float) : Potential Float :=
  harmonic degree k center

def Potential.standard : Potential Float := harmonicAngle 50.0 120.0

end MolecularTools
