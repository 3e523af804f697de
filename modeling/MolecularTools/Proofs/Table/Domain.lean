import MolecularTools.Proofs.Binary64.Arithmetic
import MolecularTools.Proofs.Table.Settings

/-! Where a potential is evaluated. The sampled angles lie between zero and the straight angle, in
spite of rounding. A difference of energies is also taken there, but its two angles lie on both sides
of the sampled one, and so beyond both ends. -/
namespace MolecularTools

open Binary64

/-- The documented domain of a potential, in degrees. -/
def InDomain (θ : Float) : Prop := 0 ≤ θ ∧ θ ≤ 180

instance (θ : Float) : Decidable (InDomain θ) := inferInstanceAs (Decidable (0 ≤ θ ∧ θ ≤ 180))

def NearDomain (θ : Float) : Prop := 0 - differenceStep ≤ θ ∧ θ ≤ 180 + differenceStep

def Potential.AgreeInDomain (p q : Potential Float) : Prop :=
  ∀ θ, InDomain θ → q.energy θ = p.energy θ ∧ q.force θ = p.force θ

theorem denotes_differenceStep : ∃ h, 0 < h ∧ h < 1 ∧ Denotes differenceStep h := by
  have unpacked : differenceStep.toModel.unpack =
      .finite .positive 4722366482869645 (-72) (by decide) := rfl
  refine ⟨signed .positive ((4722366482869645 : ℕ) * 2 ^ (-72 : ℤ)), ?_, ?_, ?_⟩
  · exact magnitude_pos (by decide) _
  · simp only [signed]
    norm_num
  · rw [Denotes, unpacked]
    exact .finite .positive ⟨by decide, by decide, by decide, .inl (by decide)⟩ _

theorem denotes_zero : Denotes 0 0 := by
  have zero := denotes_ofNat (n := 0) (by decide)
  rwa [Nat.cast_zero] at zero

theorem denotes_straight : Denotes 180 180 := denotes_ofNat (n := 180) (by decide)

/-- No number of this size is beyond the reach of the format. -/
theorem in_reach {v : ℚ} (low : -1 < v) (high : v < 181) : |v| < 2 ^ (1023 : ℤ) := by
  have size : |v| < 181 := abs_lt.mpr ⟨by linarith, high⟩
  have reach : (2 : ℚ) ^ (8 : ℤ) < 2 ^ (1023 : ℤ) := zpow_lt_zpow_right₀ one_lt_two (by decide)
  exact (size.trans (by norm_num)).trans reach

/-- Beside an angle of the domain, there are only angles near the domain. -/
theorem near_of_denotes {θ : Float} {a : ℚ} (denotes : Denotes θ a) (low : 0 ≤ a) (high : a ≤ 180) :
    NearDomain (θ + differenceStep) ∧ NearDomain (θ - differenceStep) := by
  obtain ⟨h, above, below, step⟩ := denotes_differenceStep
  obtain ⟨least, first, bottom⟩ := denotes_zero.sub step (in_reach (by linarith) (by linarith))
  obtain ⟨most, last, top⟩ := denotes_straight.add step (in_reach (by linarith) (by linarith))
  obtain ⟨more, forth, right⟩ := denotes.add step (in_reach (by linarith) (by linarith))
  obtain ⟨less, back, left⟩ := denotes.sub step (in_reach (by linarith) (by linarith))
  refine ⟨⟨?_, ?_⟩, ?_, ?_⟩
  · exact (bottom.le_iff right).mpr (first.mono forth (by linarith))
  · exact (right.le_iff top).mpr (forth.mono last (by linarith))
  · exact (bottom.le_iff left).mpr (first.mono back (by linarith))
  · exact (left.le_iff top).mpr (back.mono last (by linarith))

namespace Sampling

/-- The rounded spacing is so little too wide that all its multiples but the last stay below the
straight angle. -/
theorem multiple_le {n i : ℕ} {q : ℚ} (bits : n < 2 ^ 53) (inside : i < n)
    (rounded : Rounded (180 / n) q) : i * q ≤ 180 := by
  have some : (0 : ℚ) < n := by exact_mod_cast (by omega : 0 < n)
  have positive : (0 : ℚ) < 180 / n := by positivity
  have bits : (n : ℚ) < 2 ^ 53 := by exact_mod_cast bits
  have large : (2 : ℚ) ^ (52 + -105 : ℤ) ≤ 180 / n := by
    have unit : (2 : ℚ) ^ (52 + -105 : ℤ) = 1 / 2 ^ 53 := by norm_num
    rw [unit, div_le_div_iff₀ (by positivity) some]
    linarith
  have wide := rounded.le_of_within positive ((le_lastPlace large).trans_lt' (by decide))
  have before : (i : ℚ) + 1 ≤ n := by exact_mod_cast inside
  have count : ((n : ℚ) - 1) * (1 + 1 / 2 ^ 53) ≤ n := by linarith
  have positive' : (0 : ℚ) ≤ 180 / n * (1 + 1 / 2 ^ 53) := by positivity
  calc (i : ℚ) * q ≤ i * (180 / n * (1 + 1 / 2 ^ 53)) :=
        mul_le_mul_of_nonneg_left wide (Nat.cast_nonneg i)
    _ ≤ (n - 1) * (180 / n * (1 + 1 / 2 ^ 53)) :=
        mul_le_mul_of_nonneg_right (by linarith) positive'
    _ = 180 / n * ((n - 1) * (1 + 1 / 2 ^ 53)) := by ring
    _ ≤ 180 / n * n := mul_le_mul_of_nonneg_left count positive.le
    _ = 180 := div_mul_cancel₀ _ some.ne'

/-- Every sampled angle is a number of the domain. -/
theorem angle_denotes {s : Sampling} (few : s.points ≤ 2 ^ 53) {i : ℕ} (inside : i < s.points) :
    ∃ a, Denotes (s.angle i) a ∧ 0 ≤ a ∧ a ≤ 180 := by
  rw [angle]
  split
  · exact ⟨180, denotes_straight, by norm_num, le_rfl⟩
  · have intervals : (1 : ℚ) ≤ (s.points - 1 : ℕ) := by exact_mod_cast (by omega : 1 ≤ s.points - 1)
    have wide : (180 : ℚ) / (s.points - 1 : ℕ) ≤ 180 := div_le_self (by norm_num) intervals
    have positive : (0 : ℚ) < 180 / (s.points - 1 : ℕ) := by positivity
    have count : Denotes (Float.ofNat (s.points - 1)) (s.points - 1 : ℕ) := denotes_ofNat (by omega)
    obtain ⟨q, rounded, spacing⟩ := denotes_straight.div count (by linarith)
      (in_reach (by linarith) (by linarith))
    have low : 0 ≤ i * q := mul_nonneg (Nat.cast_nonneg i) (rounded.nonneg positive.le)
    have high : i * q ≤ 180 := multiple_le (by omega) (by omega) rounded
    have place : Denotes (Float.ofNat i) i := denotes_ofNat (by omega)
    obtain ⟨a, rounded, angle⟩ := place.mul spacing (in_reach (by linarith) (by linarith))
    exact ⟨a, angle, rounded.nonneg low, rounded.mono denotes_straight.rounded high⟩

theorem angle_inDomain {s : Sampling} (few : s.points ≤ 2 ^ 53) {i : ℕ} (inside : i < s.points) :
    InDomain (s.angle i) := by
  obtain ⟨a, denotes, low, high⟩ := angle_denotes few inside
  exact ⟨(denotes_zero.le_iff denotes).mpr low, (denotes.le_iff denotes_straight).mpr high⟩

section

variable {s : Sampling} {p q : Potential Float}

/-- In closed form, only the domain is sampled. -/
theorem tabulate_inDomain (few : s.points ≤ 2 ^ 53) (closed : s.numericForce = false)
    (agree : p.AgreeInDomain q) (label : String) (units : Units) :
    s.tabulate differenceStep q label units = s.tabulate differenceStep p label units := by
  refine tabulate_congr (fun i inside => (agree _ (angle_inDomain few inside)).1)
    (fun i inside => ?_) label units
  rw [force, force, closed]
  exact (agree _ (angle_inDomain few inside)).2

/-- With differences, the energy counts a step beyond both ends, too. -/
theorem tabulate_nearDomain (few : s.points ≤ 2 ^ 53) (agree : p.AgreeInDomain q)
    (near : ∀ θ, NearDomain θ → q.energy θ = p.energy θ) (label : String) (units : Units) :
    s.tabulate differenceStep q label units = s.tabulate differenceStep p label units := by
  refine tabulate_congr (fun i inside => (agree _ (angle_inDomain few inside)).1)
    (fun i inside => ?_) label units
  rw [force, force]
  split
  · obtain ⟨a, denotes, low, high⟩ := angle_denotes few inside
    obtain ⟨right, left⟩ := near_of_denotes denotes low high
    rw [Potential.difference, Potential.difference, near _ right, near _ left]
  · exact (agree _ (angle_inDomain few inside)).2

/-- The difference at the straight angle tells potentials apart that agree in the domain. -/
theorem tabulate_beyond {label : String} (enough : 2 ≤ s.points) (word : isWord label = true)
    (numeric : s.numericForce = true) (units : Units) :
    ∃ p q : Potential Float, p.AgreeInDomain q ∧
      s.tabulate differenceStep q label units ≠ s.tabulate differenceStep p label units := by
  refine ⟨{ energy := fun _ => 5, force := fun _ => 0 },
    { energy := fun θ => if θ ≤ 180 then 5 else 0, force := fun _ => 0 },
    fun θ inside => ⟨if_pos inside.2, rfl⟩, fun same => ?_⟩
  rw [tabulate_eq enough word, tabulate_eq enough word] at same
  have forces := congrArg (fun t => t.samples.map fun r => r.force) (Except.ok.inj same)
  simp only [List.map_map] at forces
  have last := List.map_inj_left.mp forces (s.points - 1) (List.mem_range.mpr (by omega))
  simp only [Function.comp, force, numeric, if_true, angle] at last
  exact absurd last (by decide +kernel)

/-- Whether the domain determines the table. It does for forces in closed form, and for calls that are
refused. With differences of the energy it does not, but a step more on both sides does. Up to this
number of points, every count of points is a binary64 number. -/
theorem domain_determines_iff (few : s.points ≤ 2 ^ 53) (label : String) (units : Units) :
    ((∀ p q : Potential Float, p.AgreeInDomain q →
        s.tabulate differenceStep q label units = s.tabulate differenceStep p label units) ↔
      s.numericForce = false ∨ s.points < 2 ∨ isWord label = false) ∧
    ∀ p q : Potential Float, p.AgreeInDomain q → (∀ θ, NearDomain θ → q.energy θ = p.energy θ) →
      s.tabulate differenceStep q label units = s.tabulate differenceStep p label units := by
  refine ⟨⟨fun determined => ?_, ?_⟩, fun p q agree near =>
    tabulate_nearDomain few agree near label units⟩
  · by_contra escapes
    simp only [not_or, Bool.not_eq_false, Nat.not_lt] at escapes
    obtain ⟨numeric, enough, word⟩ := escapes
    obtain ⟨p, q, agree, differ⟩ := tabulate_beyond enough word numeric units
    exact differ (determined p q agree)
  · rintro (closed | refused) p q agree
    · exact tabulate_inDomain few closed agree label units
    · obtain ⟨e, error⟩ := tabulate_refused refused differenceStep p units
      rw [error, tabulate_error error rfl]

/-- The standard table does not see that another potential is NaN outside the domain. -/
theorem standard_inside : Sampling.tabulate {} differenceStep
      { energy := fun θ => if InDomain θ then Potential.standard.energy θ else 0 / 0
        force := fun θ => if InDomain θ then Potential.standard.force θ else 0 / 0 } "HARM" .real =
    Sampling.tabulate {} differenceStep .standard "HARM" .real :=
  (domain_determines_iff (s := {}) (by decide) "HARM" .real).1.mpr (.inl rfl) .standard _
    fun _ inside => ⟨if_pos inside, if_pos inside⟩

/-- A constant energy and one that is cut off below zero agree in the domain. The differences at
zero tell them apart. -/
theorem cut_off_told_apart :
    Potential.AgreeInDomain { energy := fun _ => 5, force := fun _ => 0 }
      { energy := fun θ => if 0 ≤ θ then 5 else 0, force := fun _ => 0 } ∧
    Sampling.tabulate { points := 2, numericForce := true } differenceStep
        { energy := fun θ => if 0 ≤ θ then 5 else 0, force := fun _ => 0 } "STEP" .real ≠
      Sampling.tabulate { points := 2, numericForce := true } differenceStep
        { energy := fun _ => 5, force := fun _ => 0 } "STEP" .real := by
  refine ⟨fun θ inside => ⟨if_pos inside.1, rfl⟩, fun same => ?_⟩
  rw [tabulate_eq (by decide) (by decide +kernel), tabulate_eq (by decide) (by decide +kernel)] at same
  have forces := congrArg (fun t => t.samples.map fun r => r.force) (Except.ok.inj same)
  exact absurd forces (by decide +kernel)

end

end Sampling

end MolecularTools
