import Mathlib.Data.List.Basic
import MolecularTools.Proofs.Table.Lowest

/-! The two settings of a sampling. One decides about the forces of a table and the other one about
its energies; the rest of the table does not depend on either. -/
namespace MolecularTools

variable {α : Type}

/-- What is in the rows of a table, column by column. Rows are numbered from one. -/
structure AngleTable.Columns (t : AngleTable α) (angles energies forces : List α) : Prop where
  indices : (t.samples.map fun q => q.index) = List.range' 1 t.samples.length
  angles : (t.samples.map fun q => q.angle) = angles
  energies : (t.samples.map fun q => q.energy) = energies
  forces : (t.samples.map fun q => q.force) = forces

namespace Sampling

variable [Scalar α]

theorem tabulate_refused {s : Sampling} {label : String}
    (refused : s.points < 2 ∨ isWord label = false) (step : α) (p : Potential α) (units : Units) :
    ∃ e, s.tabulate step p label units = .error e := by
  cases call : s.tabulate step p label units with
  | error e => exact ⟨e, rfl⟩
  | ok t =>
    obtain ⟨enough, word⟩ := tabulate_accepts call
    rcases refused with few | wordless
    · omega
    · rw [word] at wordless
      contradiction

/-- A call is refused for its number of points or its label, whatever else it is given. -/
theorem tabulate_error {s s' : Sampling} {step step' : α} {p p' : Potential α} {label : String}
    {units units' : Units} {e : TableError} (refused : s.tabulate step p label units = .error e)
    (same : s'.points = s.points) : s'.tabulate step' p' label units' = .error e := by
  rw [tabulate] at refused ⊢
  rw [same]
  by_cases few : s.points < 2
  · rw [if_pos few] at refused ⊢
    cases refused
    rfl
  · rw [if_neg few] at refused ⊢
    cases word : isWord label with
    | true =>
      rw [word] at refused
      contradiction
    | false =>
      rw [word] at refused
      cases refused
      rfl

/-- A table is made of what a potential gives at the sampled angles. -/
theorem tabulate_congr {s : Sampling} {step : α} {p q : Potential α}
    (energies : ∀ i < s.points, q.energy (s.angle i) = p.energy (s.angle i))
    (forces : ∀ i < s.points, s.force step q (s.angle i) = s.force step p (s.angle i))
    (label : String) (units : Units) :
    s.tabulate step q label units = s.tabulate step p label units := by
  have same : s.samples step q = s.samples step p := by
    refine List.map_congr_left fun i there => ?_
    have inside := List.mem_range.mp there
    rw [sample, sample, energies i inside, forces i inside]
  rw [tabulate, tabulate, same]

/-- Where both sources give the same force, a table does not tell which one was taken. -/
theorem tabulate_source {step : α} {p : Potential α}
    (same : ∀ θ, Potential.difference step p.energy θ = p.force θ) (n : Nat) (shift : Bool)
    (label : String) (units : Units) :
    Sampling.tabulate { points := n, numericForce := true, shift } step p label units =
      Sampling.tabulate { points := n, numericForce := false, shift } step p label units := by
  have rows : Sampling.samples { points := n, numericForce := true, shift } step p =
      Sampling.samples { points := n, numericForce := false, shift } step p :=
    List.map_congr_left fun i _ => by
      simp only [sample, force, if_true, same]
      rfl
  rw [tabulate, tabulate, rows]

section

variable (n : Nat) (step : α) (p : Potential α)

/-- The energies at the sampled angles, less the one of the equilibrium if they are shifted. -/
def energyColumn (shift : Bool) : List α :=
  let s : Sampling := { points := n }
  (List.range n).map fun i =>
    if shift then p.energy (s.angle i) - p.energy (s.angle (s.choice p)) else p.energy (s.angle i)

def forceColumn (numericForce : Bool) : List α :=
  let s : Sampling := { points := n, numericForce }
  (List.range n).map fun i => s.force step p (s.angle i)

variable {n} {label : String}

/-- Each column has its own setting, or none. -/
theorem tabulate_columns (enough : 2 ≤ n) (word : isWord label = true) (units : Units)
    (numericForce shift : Bool) : ∃ t,
    Sampling.tabulate { points := n, numericForce, shift } step p label units = .ok t ∧
      t.label = label ∧ t.units = units ∧ t.samples.length = n ∧
      t.equilibrium = Sampling.angle { points := n } (Sampling.choice { points := n } p) ∧
      t.Columns ((List.range n).map (Sampling.angle { points := n })) (energyColumn n p shift)
        (forceColumn n step p numericForce) := by
  refine ⟨_, tabulate_eq (s := { points := n, numericForce, shift }) enough word step p units,
    rfl, rfl, ?_, rfl, ?_, ?_, ?_, ?_⟩
  · rw [List.length_map, List.length_range]
  · simp only [List.map_map, List.length_map, List.length_range]
    rw [List.range'_eq_map_range]
    exact List.map_congr_left fun i _ => Nat.add_comm i 1
  · rw [List.map_map]
    rfl
  · rw [List.map_map]
    rfl
  · rw [List.map_map]
    rfl

theorem energyColumn_shift : energyColumn n p true =
    (energyColumn n p false).map fun e =>
      e - p.energy (Sampling.angle { points := n } (Sampling.choice { points := n } p)) := by
  rw [energyColumn, energyColumn, List.map_map]
  rfl

end

/-- The settings are independent. Either all four calls fail with the same error, or all succeed:
their tables differ in the force column, which one setting decides about, and in the energy column,
which the other one decides about. A shift takes the energy of the equilibrium off. Differences know
energies only, and forces in closed form know none. -/
theorem settings_independent (n : Nat) (step : α) (p : Potential α) (label : String)
    (units : Units) :
    ((∃ e, ∀ numericForce shift, Sampling.tabulate { points := n, numericForce, shift }
        step p label units = .error e) ∨
      ∃ (k : Nat) (equilibrium least : α) (angles : List α) (energies forces : Bool → List α),
        angles[k]? = some equilibrium ∧ (energies false)[k]? = some least ∧
        energies true = (energies false).map (fun e => e - least) ∧
        ∀ numericForce shift, ∃ t,
          Sampling.tabulate { points := n, numericForce, shift } step p label units = .ok t ∧
          t.label = label ∧ t.units = units ∧ t.samples.length = n ∧
          t.equilibrium = equilibrium ∧
          t.Columns angles (energies shift) (forces numericForce)) ∧
    (∀ q : Potential α, q.energy = p.energy → ∀ shift,
      Sampling.tabulate { points := n, numericForce := true, shift } step q label units =
        Sampling.tabulate { points := n, numericForce := true, shift } step p label units) ∧
    ∀ q : Potential α, q.force = p.force → ∀ shift,
      (Sampling.tabulate { points := n, numericForce := false, shift } step q label units).map
          (fun t => t.samples.map fun r => r.force) =
        (Sampling.tabulate { points := n, numericForce := false, shift } step p label units).map
          (fun t => t.samples.map fun r => r.force) := by
  cases first : Sampling.tabulate { points := n } step p label units with
  | error e =>
    have refused (s : Sampling) (same : s.points = n) (q : Potential α) :
        s.tabulate step q label units = .error e := tabulate_error first same
    refine ⟨.inl ⟨e, fun a b => refused _ rfl p⟩, fun q _ shift => ?_, fun q _ shift => ?_⟩
    · rw [refused _ rfl q, refused _ rfl p]
    · rw [refused _ rfl q, refused _ rfl p]
  | ok t =>
    obtain ⟨enough, word⟩ := tabulate_accepts first
    have inside := choice_lt (s := { points := n }) enough p
    refine ⟨.inr ⟨Sampling.choice { points := n } p, _, _,
      (List.range n).map (Sampling.angle { points := n }), energyColumn n p, forceColumn n step p,
      ?_, ?_, energyColumn_shift p, tabulate_columns step p enough word units⟩,
      fun q same shift => ?_, fun q same shift => ?_⟩
    · rw [List.getElem?_map, List.getElem?_range inside]
      rfl
    · rw [energyColumn, List.getElem?_map, List.getElem?_range inside]
      rfl
    · exact tabulate_congr (fun i _ => congrFun same _) (fun i _ => by
        rw [force, force, same]
        rfl) label units
    · obtain ⟨t, done, -, -, -, -, columns⟩ :=
        tabulate_columns step q enough word units false shift
      obtain ⟨t', done', -, -, -, -, columns'⟩ :=
        tabulate_columns step p enough word units false shift
      have alike : forceColumn n step q false = forceColumn n step p false := by
        simp only [forceColumn, force, same, Bool.false_eq_true, if_false]
      rw [done, done', Except.map, Except.map, columns.forces, columns'.forces, alike]

end Sampling

end MolecularTools
