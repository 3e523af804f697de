import Mathlib.Algebra.Order.Field.Power
import Mathlib.Data.Int.Log
import Mathlib.Data.Rat.Floor
import Mathlib.Tactic.Linarith
import Mathlib.Tactic.NormNum
import Mathlib.Tactic.Positivity
import Mathlib.Tactic.Ring
import MolecularTools.Decimal.Round

/-! Decimal rounding, told on rational numbers. A magnitude goes to the nearest multiple of the unit
in its last leading digit. Rounding it once more, at the place that the exponent after the first
rounding names, gives the same digits. -/
namespace MolecularTools.Decimal

def Dyadic.value (d : Dyadic) : ℚ := d.mantissa * 2 ^ d.exponent

/-- The whole number nearest to `v`, and from the middle between two the even one. -/
structure Nearest (v : ℚ) (n : ℤ) : Prop where
  near : |v - n| ≤ 1 / 2
  even : |v - n| = 1 / 2 → Even n

namespace Nearest

variable {v : ℚ} {m n : ℤ}

theorem le (one : Nearest v m) (other : Nearest v n) : n ≤ m := by
  by_contra less
  have less : m + 1 ≤ n := by omega
  have apart : (m : ℚ) + 1 ≤ n := by exact_mod_cast less
  obtain ⟨_, below⟩ := abs_le.mp one.near
  obtain ⟨above, _⟩ := abs_le.mp other.near
  have next : (n : ℚ) = m + 1 := by linarith
  have next : n = m + 1 := by exact_mod_cast next
  have low : v - m = 1 / 2 := by linarith
  have high : v - n = -(1 / 2) := by linarith
  obtain ⟨a, even⟩ := one.even (by rw [low]; norm_num)
  obtain ⟨b, odd⟩ := other.even (by rw [high]; norm_num)
  omega

theorem unique (one : Nearest v m) (other : Nearest v n) : m = n :=
  le_antisymm (other.le one) (one.le other)

theorem neg (nearest : Nearest v n) : Nearest (-v) (-n) := by
  have same : |-v - ((-n : ℤ) : ℚ)| = |v - n| := by
    rw [← abs_neg (v - n), Int.cast_neg]
    congr 1
    ring
  refine ⟨by rw [same]; exact nearest.near, fun middle => ?_⟩
  rw [same] at middle
  exact (nearest.even middle).neg

theorem of_lt (near : |v - n| < 1 / 2) : Nearest v n := ⟨near.le, fun middle => absurd middle near.ne⟩

theorem self (n : ℤ) : Nearest n n := .of_lt (by norm_num)

theorem mono {u : ℚ} (one : Nearest u m) (other : Nearest v n) (less : u ≤ v) : m ≤ n := by
  by_contra more
  have more : n + 1 ≤ m := by omega
  have apart : (n : ℚ) + 1 ≤ m := by exact_mod_cast more
  obtain ⟨_, below⟩ := abs_le.mp other.near
  obtain ⟨above, _⟩ := abs_le.mp one.near
  obtain rfl : u = v := le_antisymm less (by linarith)
  have same := one.unique other
  omega

end Nearest

/-- The unit in the last of the `p` leading digits of `v`. -/
def lastUnit (p : ℕ) (v : ℚ) : ℚ := 10 ^ (Int.log 10 |v| + 1 - p)

/-- `D` is `v` rounded to `p` leading digits, ties to the even last digit. -/
def Rounds (p : ℕ) (v D : ℚ) : Prop := ∃ n : ℤ, Nearest (v / lastUnit p v) n ∧ D = n * lastUnit p v

namespace Rounds

variable {p : ℕ} {v D D' : ℚ}

theorem unique (one : Rounds p v D) (other : Rounds p v D') : D = D' := by
  obtain ⟨m, nearest, rfl⟩ := one
  obtain ⟨n, next, rfl⟩ := other
  rw [nearest.unique next]

theorem neg (rounds : Rounds p v D) : Rounds p (-v) (-D) := by
  obtain ⟨n, nearest, rfl⟩ := rounds
  have unit : lastUnit p (-v) = lastUnit p v := by rw [lastUnit, abs_neg, lastUnit]
  refine ⟨-n, ?_, ?_⟩
  · rw [unit, neg_div]
    exact nearest.neg
  · rw [unit]
    push_cast
    ring

end Rounds

theorem ten_zpow_pos (e : ℤ) : (0 : ℚ) < 10 ^ e := by positivity

theorem zpow_eq_div {b : ℚ} (nonzero : b ≠ 0) (e : ℤ) : b ^ e = b ^ e.toNat / b ^ (-e).toNat := by
  rw [eq_div_iff (pow_ne_zero _ nonzero), ← zpow_natCast, ← zpow_natCast, ← zpow_add₀ nonzero]
  congr 1
  omega

theorem Dyadic.value_eq (d : Dyadic) : d.value = d.num / d.den := by
  rw [value, zpow_eq_div two_ne_zero, num, den]
  push_cast [Nat.pow_eq]
  ring

theorem Dyadic.value_pos {d : Dyadic} (nonzero : d.mantissa ≠ 0) : 0 < d.value := by
  have positive : (0 : ℚ) < d.mantissa := by exact_mod_cast Nat.pos_of_ne_zero nonzero
  exact mul_pos positive (by positivity)

/-- Rounding a quotient gives the whole number nearest to it. -/
theorem roundQuotient_nearest {num den : ℕ} (positive : 0 < den) :
    Nearest ((num : ℚ) / den) (roundQuotient num den : ℕ) := by
  have pos : (0 : ℚ) < den := by exact_mod_cast positive
  have split : (num : ℚ) / den = (num / den : ℕ) + (num % den : ℕ) / (den : ℚ) := by
    have whole : (num : ℚ) = den * (num / den : ℕ) + (num % den : ℕ) := by
      exact_mod_cast (Nat.div_add_mod num den).symm
    rw [div_eq_iff pos.ne', add_mul, div_mul_cancel₀ _ pos.ne', mul_comm]
    exact whole
  have less : ((num % den : ℕ) : ℚ) / den < 1 := by
    rw [div_lt_one pos]
    exact_mod_cast Nat.mod_lt num positive
  have nonneg : (0 : ℚ) ≤ ((num % den : ℕ) : ℚ) / den := by positivity
  simp only [roundQuotient]
  split_ifs with below above
  · have half : ((num % den : ℕ) : ℚ) / den < 1 / 2 := by
      rw [div_lt_div_iff₀ pos two_pos]
      exact_mod_cast (by omega : num % den * 2 < 1 * den)
    apply Nearest.of_lt
    rw [split, Int.cast_natCast, add_sub_cancel_left, abs_of_nonneg nonneg]
    exact half
  · have half : 1 / 2 < ((num % den : ℕ) : ℚ) / den := by
      rw [div_lt_div_iff₀ two_pos pos]
      exact_mod_cast (by omega : 1 * den < num % den * 2)
    apply Nearest.of_lt
    rw [split, Int.cast_natCast, Nat.cast_add_one, abs_lt]
    constructor
    · linarith
    · linarith
  · have half : ((num % den : ℕ) : ℚ) / den = 1 / 2 := by
      rw [div_eq_div_iff pos.ne' two_ne_zero]
      exact_mod_cast (by omega : num % den * 2 = 1 * den)
    rcases Nat.mod_two_eq_zero_or_one (num / den) with even | odd
    · rw [even, Nat.add_zero]
      refine ⟨?_, fun _ => ?_⟩
      · rw [split, half, Int.cast_natCast, add_sub_cancel_left, abs_of_pos one_half_pos]
      · exact_mod_cast Nat.even_iff.mpr even
    · rw [odd]
      refine ⟨?_, fun _ => ?_⟩
      · rw [split, half, Int.cast_natCast, Nat.cast_add_one, abs_le]
        constructor
        · linarith
        · linarith
      · exact_mod_cast (Nat.odd_iff.mpr odd).add_one

theorem scaled_nearest (d : Dyadic) (places : ℤ) :
    Nearest (d.value * 10 ^ places) (scaled d places : ℕ) := by
  have quotient : d.value * 10 ^ places = ((d.num * Nat.pow 10 places.toNat : ℕ) : ℚ) /
      ((d.den * Nat.pow 10 (-places).toNat : ℕ) : ℚ) := by
    rw [Dyadic.value_eq, zpow_eq_div (by norm_num) places]
    push_cast [Nat.pow_eq]
    exact div_mul_div_comm _ _ _ _
  rw [quotient]
  exact roundQuotient_nearest (Nat.mul_pos d.den_pos (Nat.pow_pos (by decide)))

theorem digitsWithin_zero (fuel : ℕ) : digitsWithin fuel 0 = 0 := by
  cases fuel with
  | zero => rfl
  | succ fuel => rfl

theorem digitsWithin_eq {fuel n : ℕ} (enough : n < 2 ^ fuel) (nonzero : n ≠ 0) :
    digitsWithin fuel n = Nat.log 10 n + 1 := by
  induction fuel generalizing n with
  | zero => omega
  | succ fuel ih =>
    rw [digitsWithin, if_neg nonzero]
    rcases Nat.lt_or_ge n 10 with small | large
    · rw [Nat.div_eq_of_lt small, digitsWithin_zero, Nat.log_of_lt small]
    · rw [pow_succ] at enough
      rw [ih (by omega) (by omega), Nat.log_of_one_lt_of_le (by decide) large]

theorem digitCount_eq {n : ℕ} (nonzero : n ≠ 0) : digitCount n = Nat.log 10 n + 1 :=
  digitsWithin_eq Nat.lt_log2_self nonzero

/-- An exponent is that of the leading digit if the powers of ten around it enclose the number. -/
theorem log_eq_of_enclosed {v : ℚ} {e : ℤ} (low : 10 ^ e ≤ v) (high : v < 10 ^ (e + 1)) :
    Int.log 10 v = e := by
  have positive : 0 < v := (ten_zpow_pos e).trans_le low
  have atLeast := (Int.zpow_le_iff_le_log (b := 10) (by decide) positive).mp (by exact_mod_cast low)
  have below := (Int.lt_zpow_iff_log_lt (b := 10) (by decide) positive).mp (by exact_mod_cast high)
  omega

theorem enclosed {v : ℚ} (positive : 0 < v) :
    10 ^ Int.log 10 v ≤ v ∧ v < 10 ^ (Int.log 10 v + 1) := by
  constructor
  · exact_mod_cast Int.zpow_log_le_self (b := 10) (by decide) positive
  · exact_mod_cast Int.lt_zpow_succ_log_self (b := 10) (by decide) v

theorem leadingExponent_eq {d : Dyadic} (nonzero : d.mantissa ≠ 0) :
    leadingExponent d = Int.log 10 d.value := by
  have num_pos : 0 < d.num := Nat.pos_of_ne_zero (Dyadic.num_eq_zero.not.mpr nonzero)
  have pos : (0 : ℚ) < d.den := by exact_mod_cast d.den_pos
  rw [leadingExponent]
  split
  · rename_i atLeastOne
    have some : d.num / d.den ≠ 0 := (Nat.div_pos atLeastOne d.den_pos).ne'
    have low := Nat.pow_log_le_self 10 some
    have high := Nat.lt_pow_succ_log_self (b := 10) (by decide) (d.num / d.den)
    rw [digitCount_eq some]
    symm
    apply log_eq_of_enclosed
    · rw [Dyadic.value_eq, le_div_iff₀ pos]
      push_cast
      rw [add_sub_cancel_right, zpow_natCast]
      exact_mod_cast (Nat.le_div_iff_mul_le d.den_pos).mp low
    · rw [Dyadic.value_eq, div_lt_iff₀ pos]
      push_cast
      rw [add_sub_cancel_right, ← Nat.cast_one, ← Nat.cast_add, zpow_natCast]
      exact_mod_cast (Nat.div_lt_iff_lt_mul d.den_pos).mp high
  · rename_i belowOne
    have some : (d.den - 1) / d.num ≠ 0 := (Nat.div_pos (by omega) num_pos).ne'
    have low := Nat.pow_log_le_self 10 some
    have high := Nat.lt_pow_succ_log_self (b := 10) (by decide) ((d.den - 1) / d.num)
    rw [digitCount_eq some]
    symm
    apply log_eq_of_enclosed
    · rw [Dyadic.value_eq, le_div_iff₀ pos, zpow_neg, zpow_natCast, inv_mul_le_iff₀ (by positivity)]
      have whole : d.den - 1 < 10 ^ (Nat.log 10 ((d.den - 1) / d.num) + 1) * d.num :=
        (Nat.div_lt_iff_lt_mul num_pos).mp high
      exact_mod_cast (by omega : d.den ≤ 10 ^ (Nat.log 10 ((d.den - 1) / d.num) + 1) * d.num)
    · have power : -((Nat.log 10 ((d.den - 1) / d.num) + 1 : ℕ) : ℤ) + 1 =
          -((Nat.log 10 ((d.den - 1) / d.num) : ℕ) : ℤ) := by omega
      rw [power, Dyadic.value_eq, div_lt_iff₀ pos, zpow_neg, zpow_natCast,
        lt_inv_mul_iff₀ (by positivity)]
      have whole := (Nat.le_div_iff_mul_le num_pos).mp low
      exact_mod_cast (by omega : 10 ^ Nat.log 10 ((d.den - 1) / d.num) * d.num < d.den)

section

variable {d : Dyadic} {p : ℕ}

/-- The magnitude in units of the last of its leading digits. -/
theorem leading_enclosed (nonzero : d.mantissa ≠ 0) (some : 0 < p) :
    (10 ^ (p - 1) : ℕ) ≤ d.value * 10 ^ (p - 1 - leadingExponent d) ∧
      d.value * 10 ^ (p - 1 - leadingExponent d) < (10 ^ p : ℕ) := by
  obtain ⟨low, high⟩ := enclosed (Dyadic.value_pos nonzero)
  rw [← leadingExponent_eq nonzero] at low high
  have unit := ten_zpow_pos (p - 1 - leadingExponent d)
  have ten : (10 : ℚ) ≠ 0 := by norm_num
  constructor
  · calc ((10 ^ (p - 1) : ℕ) : ℚ) = 10 ^ leadingExponent d * 10 ^ (p - 1 - leadingExponent d) := by
          rw [← zpow_add₀ ten, Nat.cast_pow, ← zpow_natCast]
          congr 1
          omega
      _ ≤ _ := mul_le_mul_of_nonneg_right low unit.le
  · calc d.value * 10 ^ (p - 1 - leadingExponent d)
        < 10 ^ (leadingExponent d + 1) * 10 ^ (p - 1 - leadingExponent d) :=
          mul_lt_mul_of_pos_right high unit
      _ = (10 ^ p : ℕ) := by
          rw [← zpow_add₀ ten, Nat.cast_pow, ← zpow_natCast]
          congr 1
          omega

/-- The first rounding gives the wanted number of digits, or carries into the next power of ten. -/
theorem scaled_enclosed (nonzero : d.mantissa ≠ 0) (some : 0 < p) :
    10 ^ (p - 1) ≤ scaled d (p - 1 - leadingExponent d) ∧
      scaled d (p - 1 - leadingExponent d) ≤ 10 ^ p := by
  obtain ⟨low, high⟩ := leading_enclosed nonzero some
  obtain ⟨above, below⟩ := abs_le.mp (scaled_nearest d (p - 1 - leadingExponent d)).near
  rw [Int.cast_natCast] at above below
  constructor
  · have more : ((10 ^ (p - 1) : ℕ) : ℚ) < (scaled d (p - 1 - leadingExponent d) + 1 : ℕ) := by
      push_cast at low ⊢
      linarith
    exact Nat.lt_succ_iff.mp (by exact_mod_cast more)
  · have fewer : (scaled d (p - 1 - leadingExponent d) : ℚ) < (10 ^ p + 1 : ℕ) := by
      push_cast at high ⊢
      linarith
    exact Nat.lt_succ_iff.mp (by exact_mod_cast fewer)

theorem significant_digits (nonzero : d.mantissa ≠ 0) (some : 0 < p) :
    10 ^ (p - 1) ≤ (significant d p).digits ∧ (significant d p).digits < 10 ^ p := by
  obtain ⟨low, high⟩ := scaled_enclosed nonzero some
  simp only [significant, Nat.pow_eq]
  split
  · exact ⟨le_rfl, Nat.pow_lt_pow_right (by decide) (by omega)⟩
  · rename_i whole
    exact ⟨low, lt_of_le_of_ne high whole⟩

/-- Rounding at the place that the exponent after rounding names gives the same digits, also when
rounding carried into a new power of ten. -/
theorem scaled_significant (nonzero : d.mantissa ≠ 0) (some : 0 < p) :
    scaled d (p - 1 - (significant d p).exponent) = (significant d p).digits := by
  simp only [significant, Nat.pow_eq]
  split
  · rename_i carried
    obtain ⟨-, high⟩ := leading_enclosed nonzero some
    obtain ⟨above, -⟩ := abs_le.mp (scaled_nearest d (p - 1 - leadingExponent d)).near
    rw [carried, Int.cast_natCast] at above
    have ten : ((10 ^ p : ℕ) : ℚ) = 10 * (10 ^ (p - 1) : ℕ) := by
      obtain ⟨k, rfl⟩ := Nat.exists_eq_succ_of_ne_zero some.ne'
      rw [Nat.succ_sub_one, pow_succ, Nat.cast_mul, mul_comm]
      rfl
    have unit : d.value * 10 ^ (p - 1 - leadingExponent d) =
        10 * (d.value * 10 ^ (p - 1 - (leadingExponent d + 1))) := by
      rw [show (p : ℤ) - 1 - leadingExponent d = p - 1 - (leadingExponent d + 1) + 1 by ring,
        zpow_add_one₀ (by norm_num)]
      ring
    rw [unit, ten] at high above
    have next : Nearest (d.value * 10 ^ (p - 1 - (leadingExponent d + 1))) (10 ^ (p - 1) : ℕ) := by
      apply Nearest.of_lt
      rw [Int.cast_natCast, abs_lt]
      constructor
      · linarith
      · linarith
    exact_mod_cast (scaled_nearest d (p - 1 - (leadingExponent d + 1))).unique next
  · rfl

def Significant.value (s : Significant) (p : ℕ) : ℚ := s.digits * 10 ^ (s.exponent + 1 - p)

theorem significant_rounds (nonzero : d.mantissa ≠ 0) (some : 0 < p) :
    Rounds p d.value ((significant d p).value p) := by
  have unit : lastUnit p d.value = 10 ^ (leadingExponent d + 1 - p) := by
    rw [lastUnit, abs_of_pos (Dyadic.value_pos nonzero), leadingExponent_eq nonzero]
  have quotient : d.value / lastUnit p d.value = d.value * 10 ^ (p - 1 - leadingExponent d) := by
    rw [unit, div_eq_mul_inv, ← zpow_neg]
    congr 2
    ring
  refine ⟨scaled d (p - 1 - leadingExponent d), ?_, ?_⟩
  · rw [quotient]
    exact scaled_nearest d _
  · rw [unit]
    simp only [significant, Nat.pow_eq, Significant.value]
    split
    · rename_i carried
      rw [carried]
      push_cast
      rw [← zpow_natCast, ← zpow_natCast, ← zpow_add₀ (by norm_num), ← zpow_add₀ (by norm_num)]
      congr 1
      omega
    · rfl

/-- The exponent after rounding is that of the rounded number. -/
theorem significant_exponent (nonzero : d.mantissa ≠ 0) (some : 0 < p) :
    Int.log 10 ((significant d p).value p) = (significant d p).exponent := by
  obtain ⟨low, high⟩ := significant_digits nonzero some
  have unit := ten_zpow_pos ((significant d p).exponent + 1 - p)
  have ten : (10 : ℚ) ≠ 0 := by norm_num
  apply log_eq_of_enclosed
  · calc (10 : ℚ) ^ (significant d p).exponent
        = (10 ^ (p - 1) : ℕ) * 10 ^ ((significant d p).exponent + 1 - p) := by
          rw [Nat.cast_pow, ← zpow_natCast, Nat.cast_ofNat, ← zpow_add₀ ten]
          congr 1
          omega
      _ ≤ _ := mul_le_mul_of_nonneg_right (Nat.cast_le.mpr low) unit.le
  · calc (significant d p).value p
        < (10 ^ p : ℕ) * 10 ^ ((significant d p).exponent + 1 - p) :=
          mul_lt_mul_of_pos_right (Nat.cast_lt.mpr high) unit
      _ = 10 ^ ((significant d p).exponent + 1) := by
          rw [Nat.cast_pow, ← zpow_natCast, Nat.cast_ofNat, ← zpow_add₀ ten]
          congr 1
          omega

end

end MolecularTools.Decimal
