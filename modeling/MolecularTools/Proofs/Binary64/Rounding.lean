import MolecularTools.Proofs.Decimal.Rounding

/-! Rounding to binary64, told on rational numbers. A number goes to the nearest multiple of the unit
in its last place: 53 bits behind its leading one, and no further than the format reaches. Rounding
keeps the order of numbers and leaves those alone that the format has. -/
namespace MolecularTools.Binary64

open Decimal (Nearest)

/-- The exponent of the unit in the last place of `v`. -/
def lastPlace (v : ℚ) : ℤ := max (Int.log 2 |v| - 52) (-1074)

/-- `w` is `v` rounded to the unit in its last place, ties to even. -/
def Rounded (v w : ℚ) : Prop := ∃ n : ℤ, Nearest (v / 2 ^ lastPlace v) n ∧ w = n * 2 ^ lastPlace v

variable {v w v' w' : ℚ}

theorem two_zpow_pos (e : ℤ) : (0 : ℚ) < 2 ^ e := by positivity

theorem lastPlace_neg : lastPlace (-v) = lastPlace v := by rw [lastPlace, abs_neg, lastPlace]

theorem lastPlace_mono (positive : 0 < v) (less : v ≤ v') : lastPlace v ≤ lastPlace v' := by
  have logs : Int.log 2 |v| ≤ Int.log 2 |v'| := by
    rw [abs_of_pos positive, abs_of_pos (positive.trans_le less)]
    exact Int.log_mono_right positive less
  exact max_le_max_right _ (by omega)

/-- A number has at most 53 bits before its last place. -/
theorem lt_lastPlace (v : ℚ) : v < 2 ^ 53 * 2 ^ lastPlace v := by
  have place : Int.log 2 |v| - 52 ≤ lastPlace v := le_max_left _ _
  calc v ≤ |v| := le_abs_self v
    _ < 2 ^ (Int.log 2 |v| + 1) := by exact_mod_cast Int.lt_zpow_succ_log_self (b := 2) (by decide) |v|
    _ ≤ 2 ^ (53 + lastPlace v) := zpow_le_zpow_right₀ one_le_two (by omega)
    _ = 2 ^ 53 * 2 ^ lastPlace v := by
      rw [zpow_add₀ two_ne_zero]
      norm_num

/-- It has 53 bits, unless the format reaches no further. -/
theorem lastPlace_le (positive : 0 < v) (within : -1074 < lastPlace v) :
    2 ^ 52 * 2 ^ lastPlace v ≤ v := by
  have place : lastPlace v = Int.log 2 |v| - 52 := by
    rw [lastPlace] at within ⊢
    omega
  calc (2 : ℚ) ^ 52 * 2 ^ lastPlace v = 2 ^ Int.log 2 v := by
        rw [place, abs_of_pos positive, ← zpow_natCast, ← zpow_add₀ two_ne_zero]
        congr 1
        push_cast
        omega
    _ ≤ v := by exact_mod_cast Int.zpow_log_le_self (b := 2) (by decide) positive

theorem le_lastPlace {k : ℤ} (large : 2 ^ (52 + k) ≤ v) : k ≤ lastPlace v := by
  have positive : 0 < v := (two_zpow_pos _).trans_le large
  have log := (Int.zpow_le_iff_le_log (b := 2) (by decide) positive).mp (by exact_mod_cast large)
  rw [lastPlace, abs_of_pos positive]
  omega

/-- In the units of its last place, a number comes to at most 53 bits. -/
theorem nearest_le {n : ℤ} (nearest : Nearest (v / 2 ^ lastPlace v) n) : n ≤ 2 ^ 53 := by
  apply nearest.mono (.self (2 ^ 53))
  rw [div_le_iff₀ (two_zpow_pos _)]
  exact_mod_cast (lt_lastPlace v).le

theorem le_nearest {n : ℤ} (positive : 0 < v) (within : -1074 < lastPlace v)
    (nearest : Nearest (v / 2 ^ lastPlace v) n) : 2 ^ 52 ≤ n := by
  apply (Nearest.self (2 ^ 52)).mono nearest
  rw [le_div_iff₀ (two_zpow_pos _)]
  exact_mod_cast lastPlace_le positive within

theorem lastPlace_le_of_lt (positive : 0 < v) (small : v < 2 ^ (1023 : ℤ)) : lastPlace v ≤ 970 := by
  by_contra more
  have full := lastPlace_le positive (by omega)
  have beyond : (2 : ℚ) ^ (971 : ℤ) ≤ 2 ^ lastPlace v := zpow_le_zpow_right₀ one_le_two (by omega)
  have beyond := mul_le_mul_of_nonneg_left beyond (by positivity : (0 : ℚ) ≤ 2 ^ 52)
  have size : (2 : ℚ) ^ (1023 : ℤ) = 2 ^ 52 * 2 ^ (971 : ℤ) := by
    rw [← zpow_natCast, ← zpow_add₀ two_ne_zero]
    rfl
  exact absurd (beyond.trans full) (size ▸ small.not_ge)

namespace Rounded

theorem zero : Rounded 0 0 := ⟨0, by simpa using Nearest.self 0, by simp⟩

theorem neg (rounded : Rounded v w) : Rounded (-v) (-w) := by
  obtain ⟨n, nearest, rfl⟩ := rounded
  refine ⟨-n, ?_, ?_⟩
  · rw [lastPlace_neg, neg_div]
    exact nearest.neg
  · rw [lastPlace_neg]
    push_cast
    ring

theorem nonneg (rounded : Rounded v w) (positive : 0 ≤ v) : 0 ≤ w := by
  obtain ⟨n, nearest, rfl⟩ := rounded
  have some : 0 ≤ n := (Nearest.self 0).mono nearest (by positivity)
  have some : (0 : ℚ) ≤ n := by exact_mod_cast some
  positivity

theorem eq_zero (rounded : Rounded 0 w) : w = 0 := by
  have below := rounded.nonneg le_rfl
  have above := rounded.neg.nonneg neg_zero.ge
  linarith

theorem mono_of_pos (one : Rounded v w) (other : Rounded v' w') (positive : 0 < v)
    (less : v ≤ v') : w ≤ w' := by
  have places := lastPlace_mono positive less
  obtain ⟨n, nearest, rfl⟩ := one
  obtain ⟨n', nearest', rfl⟩ := other
  have unit := two_zpow_pos (lastPlace v)
  have unit' := two_zpow_pos (lastPlace v')
  rcases places.eq_or_lt with same | finer
  · rw [← same] at nearest' ⊢
    have counts : (n : ℚ) ≤ n' := by
      exact_mod_cast nearest.mono nearest' (div_le_div_of_nonneg_right less unit.le)
    exact mul_le_mul_of_nonneg_right counts unit.le
  · have below : (n : ℚ) ≤ 2 ^ 53 := by exact_mod_cast nearest_le nearest
    have above : (2 : ℚ) ^ 52 ≤ n' := by
      exact_mod_cast le_nearest (positive.trans_le less) ((le_max_right _ _).trans_lt finer) nearest'
    have step : (2 : ℚ) ^ (lastPlace v + 1) ≤ 2 ^ lastPlace v' :=
      zpow_le_zpow_right₀ one_le_two finer
    calc (n : ℚ) * 2 ^ lastPlace v ≤ 2 ^ 53 * 2 ^ lastPlace v :=
          mul_le_mul_of_nonneg_right below unit.le
      _ = 2 ^ 52 * 2 ^ (lastPlace v + 1) := by
        rw [zpow_add_one₀ two_ne_zero]
        ring
      _ ≤ 2 ^ 52 * 2 ^ lastPlace v' := mul_le_mul_of_nonneg_left step (by positivity)
      _ ≤ n' * 2 ^ lastPlace v' := mul_le_mul_of_nonneg_right above unit'.le

/-- Rounding keeps the order. -/
theorem mono (one : Rounded v w) (other : Rounded v' w') (less : v ≤ v') : w ≤ w' := by
  rcases lt_trichotomy v 0 with negative | rfl | positive
  · rcases le_or_gt 0 v' with positive' | negative'
    · have below := one.neg.nonneg (by linarith)
      have above := other.nonneg positive'
      linarith
    · have swapped := other.neg.mono_of_pos one.neg (by linarith) (by linarith)
      linarith
  · rw [one.eq_zero]
    exact other.nonneg less
  · exact one.mono_of_pos other positive less

theorem unique (one : Rounded v w) (other : Rounded v w') : w = w' :=
  le_antisymm (one.mono other le_rfl) (other.mono one le_rfl)

/-- A number goes no further than half of a unit. -/
theorem error (rounded : Rounded v w) : |v - w| ≤ 2 ^ lastPlace v / 2 := by
  obtain ⟨n, nearest, rfl⟩ := rounded
  have unit := two_zpow_pos (lastPlace v)
  have split : v - n * 2 ^ lastPlace v = (v / 2 ^ lastPlace v - n) * 2 ^ lastPlace v := by
    rw [sub_mul, div_mul_cancel₀ _ unit.ne']
  rw [split, abs_mul, abs_of_pos unit]
  have near := mul_le_mul_of_nonneg_right nearest.near unit.le
  linarith

/-- With all 53 bits, that is little beside the number. -/
theorem le_of_within (rounded : Rounded v w) (positive : 0 < v) (within : -1074 < lastPlace v) :
    w ≤ v * (1 + 1 / 2 ^ 53) := by
  have place := lastPlace_le positive within
  have error := (abs_le.mp rounded.error).1
  linarith

/-- A number of at most 53 bits above the end of the format stays as it is. -/
theorem self {c k : ℤ} (bits : |c| < 2 ^ 53) (reached : -1074 ≤ k) :
    Rounded (c * 2 ^ k) (c * 2 ^ k) := by
  rcases eq_or_ne c 0 with rfl | nonzero
  · simpa using zero
  have unit := two_zpow_pos k
  have some : (0 : ℚ) < |(c : ℚ)| := abs_pos.mpr (by exact_mod_cast nonzero)
  have size : |(c : ℚ) * 2 ^ k| = |(c : ℚ)| * 2 ^ k := by rw [abs_mul, abs_of_pos unit]
  have place : lastPlace (c * 2 ^ k) ≤ k := by
    have below : |(c : ℚ) * 2 ^ k| < 2 ^ (k + 53) := by
      have bits : |(c : ℚ)| < 2 ^ 53 := by exact_mod_cast bits
      rw [size, zpow_add₀ two_ne_zero, mul_comm]
      exact mul_lt_mul_of_pos_left bits unit
    have log := (Int.lt_zpow_iff_log_lt (b := 2) (by decide) (size ▸ mul_pos some unit)).mp
      (by exact_mod_cast below)
    rw [lastPlace]
    omega
  have whole : (c : ℚ) * 2 ^ k = (c * 2 ^ (k - lastPlace (c * 2 ^ k)).toNat : ℤ) *
      2 ^ lastPlace (c * 2 ^ k) := by
    push_cast
    rw [mul_assoc, ← zpow_natCast, ← zpow_add₀ two_ne_zero]
    congr 2
    omega
  refine ⟨_, ?_, whole⟩
  rw [← eq_div_of_mul_eq (two_zpow_pos _).ne' whole.symm]
  exact .self _

end Rounded

end MolecularTools.Binary64
