import MolecularTools.Table.Potential
import MolecularTools.Table.Units
import MolecularTools.Text.Blank
import MolecularTools.Text.Quoted

/-! Sampling a potential at evenly spaced angles from zero to a straight angle. The result
is an angle table: its samples in order, and the sampled angle of lowest energy. -/
namespace MolecularTools

/-- Upper end of the sampled domain in degrees; the lower end is zero. -/
def straightAngle : Nat := 180

/-- One sample. Indices start at one. -/
structure Sample (α : Type) where
  index : Nat
  angle : α
  energy : α
  force : α

structure AngleTable (α : Type) where
  label : String
  units : Units
  /-- The sampled angle of lowest energy. -/
  equilibrium : α
  samples : List (Sample α)

/-- How a potential is sampled. -/
structure Sampling where
  points : Nat := 181
  /-- Take the force as a difference of the energy. -/
  numericForce : Bool := false
  /-- Shift energies so that the lowest is zero. -/
  shift : Bool := false
deriving DecidableEq, Repr

inductive TableError where
  | tooFewPoints (points : Nat)
  | notOneWord (label : String)
deriving DecidableEq, Repr

def TableError.text : TableError → String
  | .tooFewPoints n => "A table needs at least 2 points, got " ++ toString n
  | .notOneWord label =>
    "Table label " ++ Text.quoted label ++ " must be a single non-empty word"

/-- A table is found in its file by its label, so the label must be one word. -/
def isWord (label : String) : Bool :=
  !label.toList.isEmpty && label.toList.all fun c => !Text.isBlank c

namespace Sampling

variable {α : Type} [Scalar α]

/-- Distance of neighbouring angles. -/
def spacing (s : Sampling) : α :=
  Scalar.ofNat straightAngle / Scalar.ofNat (s.points - 1)

/-- The angle of the sample with `i` samples before it. The last one is the straight angle
itself, not a multiple of the spacing. -/
def angle (s : Sampling) (i : Nat) : α :=
  if i = s.points - 1 then Scalar.ofNat straightAngle else Scalar.ofNat i * s.spacing

def force (s : Sampling) (step : α) (p : Potential α) : α → α :=
  if s.numericForce then Potential.difference step p.energy else p.force

def sample (s : Sampling) (step : α) (p : Potential α) (i : Nat) : Sample α :=
  let θ : α := s.angle i
  { index := i + 1, angle := θ, energy := p.energy θ, force := s.force step p θ }

/-- All samples, before any shift. -/
def samples (s : Sampling) (step : α) (p : Potential α) : List (Sample α) :=
  (List.range s.points).map (s.sample step p)

/-- Keeps the earlier sample unless the later one is lower or cannot be compared. -/
def lower (best : Option (Sample α)) (p : Sample α) : Option (Sample α) :=
  match best with
  | some b => if Scalar.atMost b.energy p.energy then some b else some p
  | none => some p

def lowest (ps : List (Sample α)) : Option (Sample α) := ps.foldl lower none

def lowered (least : α) (p : Sample α) : Sample α := { p with energy := p.energy - least }

/-- Samples `p` into a table. The lowest sample is found before energies are shifted. -/
def tabulate (s : Sampling) (step : α) (p : Potential α) (label : String) (units : Units) :
    Except TableError (AngleTable α) :=
  if s.points < 2 then .error (.tooFewPoints s.points)
  else if !isWord label then .error (.notOneWord label)
  else
    let ps := s.samples step p
    let (equilibrium, least) := match lowest ps with
      | some b => (b.angle, b.energy)
      | none => (Scalar.ofNat 0, Scalar.ofNat 0)
    .ok
      { label, units, equilibrium
        samples := if s.shift then ps.map (lowered least) else ps }

end Sampling

end MolecularTools
