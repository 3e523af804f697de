import Mathlib.Algebra.Order.Field.Rat
import Mathlib.Tactic.FieldSimp
import Mathlib.Tactic.Linarith
import Mathlib.Tactic.Ring
import MolecularTools.Proofs.Table.Settings

/-! Harmonic tables in exact arithmetic. The central difference of a parabola is its derivative, so
a table does not tell where its forces come from; and the energy grows with the distance from the
center, so the equilibrium is the sampled angle that is nearest to it. -/
namespace MolecularTools

instance : Scalar ℚ where
  ofNat n := n
  atMost a b := a ≤ b

namespace Exact

theorem ordered : Scalar.Ordered ℚ where
  sides _ := ⟨decide_eq_true le_rfl, decide_eq_true le_rfl⟩
  total {a b} _ _ := (le_total a b).imp decide_eq_true decide_eq_true
  trans first second := decide_eq_true ((of_decide_eq_true first).trans (of_decide_eq_true second))

section

variable {degree step k : ℚ}

/-- The factor that turns degrees into radians stands twice in the energy, and so in both forces. -/
theorem difference_harmonic (moved : step ≠ 0) (degree k center θ : ℚ) :
    Potential.difference step (Potential.harmonic degree k center).energy θ =
      (Potential.harmonic degree k center).force θ := by
  change -(k * ((θ + step - center) * degree) * ((θ + step - center) * degree) -
      k * ((θ - step - center) * degree) * ((θ - step - center) * degree)) / ((2 : ℕ) * step) =
    -((2 : ℕ) : ℚ) * k * ((θ - center) * degree) * degree
  push_cast
  field_simp
  ring

/-- Energies compare as the distances from the center do. -/
theorem harmonic_le_iff (turned : degree ≠ 0) (bound : 0 < k) (center θ φ : ℚ) :
    (Potential.harmonic degree k center).energy θ ≤ (Potential.harmonic degree k center).energy φ ↔
      |θ - center| ≤ |φ - center| := by
  have factor : 0 < k * degree ^ 2 := by positivity
  have parabola (θ : ℚ) : (Potential.harmonic degree k center).energy θ =
      k * degree ^ 2 * (θ - center) ^ 2 := by
    change k * ((θ - center) * degree) * ((θ - center) * degree) = _
    ring
  rw [parabola, parabola, mul_le_mul_iff_of_pos_left factor, sq_le_sq]

end

section

variable {s : Sampling} {i j : ℕ}

/-- Without rounding, the last angle is a multiple of the spacing like the others. -/
theorem angle_eq (enough : 2 ≤ s.points) (i : ℕ) : s.angle i = 180 * i / (s.points - 1 : ℚ) := by
  have intervals : ((s.points - 1 : ℕ) : ℚ) = s.points - 1 := Nat.cast_pred (by omega)
  have some : (1 : ℚ) ≤ (s.points - 1 : ℕ) := by exact_mod_cast (by omega : 1 ≤ s.points - 1)
  rw [← intervals, Sampling.angle]
  split
  · rename_i last
    rw [last]
    exact (mul_div_cancel_right₀ (180 : ℚ) (by linarith)).symm
  · change (i : ℚ) * ((180 : ℕ) / (s.points - 1 : ℕ)) = _
    push_cast
    ring

theorem angle_mono (enough : 2 ≤ s.points) (less : i ≤ j) : (s.angle i : ℚ) ≤ s.angle j := by
  have enough' : (2 : ℚ) ≤ s.points := by exact_mod_cast enough
  have less : (i : ℚ) ≤ j := by exact_mod_cast less
  rw [angle_eq enough, angle_eq enough]
  exact div_le_div_of_nonneg_right (by linarith) (by linarith)

/-- Those of the angles that have the least distance from the center. -/
def nearest (angles : List ℚ) (center : ℚ) : Set ℚ :=
  {a | a ∈ angles ∧ ∀ b ∈ angles, |a - center| ≤ |b - center|}

/-- The equilibrium of a harmonic table is the sampled angle nearest to the center, the smaller one
of two. -/
theorem choice_nearest {degree k : ℚ} (enough : 2 ≤ s.points) (turned : degree ≠ 0) (bound : 0 < k)
    (center : ℚ) : IsLeast (nearest ((List.range s.points).map s.angle) center)
      (s.angle (s.choice (.harmonic degree k center))) := by
  have inside := Sampling.choice_lt enough (Potential.harmonic degree k center)
  have least := Sampling.position_least
    (E := fun i => (Potential.harmonic degree k center).energy (s.angle i)) ordered
    (Nat.zero_le (s.points - 1)) (fun m zero => by omega) fun i _ _ => decide_eq_true le_rfl
  rw [Nat.sub_add_cancel (by omega)] at least
  constructor
  · refine ⟨List.mem_map_of_mem (List.mem_range.mpr inside), fun b there => ?_⟩
    obtain ⟨j, inside, rfl⟩ := List.mem_map.mp there
    exact (harmonic_le_iff turned bound center _ _).mp
      (of_decide_eq_true (least.1.2.2 j (List.mem_range.mp inside) (Nat.zero_le j)))
  · rintro a ⟨there, near⟩
    obtain ⟨i, inside, rfl⟩ := List.mem_map.mp there
    refine angle_mono enough (least.2 ⟨Nat.zero_le i, List.mem_range.mp inside, fun j inside _ => ?_⟩)
    exact decide_eq_true ((harmonic_le_iff turned bound center _ _).mpr
      (near _ (List.mem_map_of_mem (List.mem_range.mpr inside))))

theorem nearest_outside (enough : 2 ≤ s.points) {a center : ℚ}
    (near : a ∈ nearest ((List.range s.points).map s.angle) center) :
    (center < 0 → a = 0) ∧ (180 < center → a = 180) := by
  obtain ⟨there, near⟩ := near
  obtain ⟨i, inside, rfl⟩ := List.mem_map.mp there
  have inside := List.mem_range.mp inside
  have first : (s.angle 0 : ℚ) = 0 := by
    rw [angle_eq enough]
    simp
  have last : (s.angle (s.points - 1) : ℚ) = 180 := if_pos rfl
  have low : (0 : ℚ) ≤ s.angle i := first ▸ angle_mono enough (Nat.zero_le i)
  have high : (s.angle i : ℚ) ≤ 180 := last ▸ angle_mono enough (by omega)
  constructor
  · intro below
    have near := near _ (List.mem_map_of_mem (List.mem_range.mpr (by omega : 0 < s.points)))
    rw [first, abs_of_pos (by linarith), abs_of_pos (by linarith)] at near
    linarith
  · intro above
    have near := near _ (List.mem_map_of_mem (List.mem_range.mpr (by omega : s.points - 1 < s.points)))
    rw [last, abs_of_neg (by linarith), abs_of_neg (by linarith)] at near
    linarith

end

/-- Exact harmonic tables. Numeric forces are the forces in closed form, so the tables are the
same; and the equilibrium is the sampled angle nearest to the center, the smaller one of two, which
is an end of the domain if the center lies outside. -/
theorem harmonic_exact {degree step : ℚ} (turned : degree ≠ 0) (moved : step ≠ 0) (k center : ℚ) :
    (∀ θ, Potential.difference step (Potential.harmonic degree k center).energy θ =
      (Potential.harmonic degree k center).force θ) ∧
    ∀ (n : ℕ) (shift : Bool) (label : String) (units : Units),
      Sampling.tabulate { points := n, numericForce := true, shift } step
          (.harmonic degree k center) label units =
        Sampling.tabulate { points := n, numericForce := false, shift } step
          (.harmonic degree k center) label units ∧
      (0 < k → 2 ≤ n → isWord label = true → ∀ numericForce, ∃ t,
        Sampling.tabulate { points := n, numericForce, shift } step
          (.harmonic degree k center) label units = .ok t ∧
        (t.samples.map fun q => q.angle) = ((List.range n).map fun i : ℕ => (180 * i / (n - 1) : ℚ)) ∧
        IsLeast (nearest (t.samples.map fun q => q.angle) center) t.equilibrium ∧
        (center < 0 → t.equilibrium = 0) ∧ (180 < center → t.equilibrium = 180)) := by
  have numeric := difference_harmonic moved degree k center
  refine ⟨numeric, fun n shift label units => ⟨?_, fun bound enough word numericForce => ?_⟩⟩
  · exact Sampling.tabulate_source numeric n shift label units
  · obtain ⟨t, done, -, -, -, equilibrium, columns⟩ := Sampling.tabulate_columns step
      (.harmonic degree k center) enough word units numericForce shift
    have least := choice_nearest (s := { points := n }) enough turned bound center
    refine ⟨t, done, ?_, ?_, ?_⟩
    · rw [columns.angles]
      exact List.map_congr_left fun i _ => angle_eq (s := { points := n }) enough i
    · rw [columns.angles, equilibrium]
      exact least
    · rw [equilibrium]
      exact nearest_outside enough least.1

/-- A center halfway between two of three angles: the smaller one is taken. -/
theorem harmonic_halfway : ∃ t : AngleTable ℚ,
    Sampling.tabulate { points := 3, numericForce := true } (1 / 1000)
      (.harmonic (1 / 57) 50 45) "HARM" .real = .ok t ∧
    Sampling.tabulate { points := 3 } (1 / 1000)
      (.harmonic (1 / 57) 50 45) "HARM" .real = .ok t ∧
    (t.samples.map fun q => q.angle) = [0, 90, 180] ∧ t.equilibrium = 0 := by
  have turned : (1 / 57 : ℚ) ≠ 0 := by norm_num
  have moved : (1 / 1000 : ℚ) ≠ 0 := by norm_num
  obtain ⟨-, tables⟩ := harmonic_exact turned moved 50 45
  obtain ⟨same, accepted⟩ := tables 3 false "HARM" .real
  obtain ⟨t, done, angles, least, -, -⟩ :=
    accepted (by norm_num) (by decide) (by decide +kernel) true
  have angles : (t.samples.map fun q => q.angle) = [0, 90, 180] :=
    angles.trans (by norm_num [List.range_succ])
  rw [angles] at least
  have near : (0 : ℚ) ∈ nearest [0, 90, 180] 45 := by
    refine ⟨by simp, fun b there => ?_⟩
    fin_cases there
    · exact le_rfl
    · norm_num
    · norm_num
  have low : 0 ≤ t.equilibrium := by
    have there := least.1.1
    generalize t.equilibrium = a at there
    fin_cases there
    · exact le_rfl
    · norm_num
    · norm_num
  exact ⟨t, done, same ▸ done, angles, le_antisymm (least.2 near) low⟩

end Exact

end MolecularTools
