import MolecularTools.Proofs.Binary64.Packing
import MolecularTools.Proofs.Binary64.Rounding

/-! How results come into the format. A mantissa that is too long is cut, and two bits keep what
decides about the last place; so what is packed in the end is the exact result rounded once. -/
namespace MolecularTools.Binary64

open Decimal (Nearest)
open Float.Model (Format UnpackedFloat totalExponent)
open Float.Model.UnpackedFloat (Sign ExtendedMantissa Accuracy accuracyOfFraction)

/-- `q` cut to a whole number. The first bit tells whether half of a unit or more is cut off, the
second whether anything beside that half is. -/
inductive Cut : ExtendedMantissa → ℚ → Prop where
  | whole (m : ℕ) : Cut ⟨m, false, false⟩ m
  | below {m : ℕ} {q : ℚ} (more : m < q) (less : q < m + 1 / 2) : Cut ⟨m, false, true⟩ q
  | middle (m : ℕ) : Cut ⟨m, true, false⟩ (m + 1 / 2)
  | above {m : ℕ} {q : ℚ} (more : m + 1 / 2 < q) (less : q < m + 1) : Cut ⟨m, true, true⟩ q

namespace Cut

variable {em : ExtendedMantissa} {q : ℚ}

theorem exact (m : ℕ) : Cut (.ofMantissaAndAccuracy m .exact) m := .whole m

theorem fraction (num : ℕ) {den : ℕ} (positive : 0 < den) :
    Cut (.ofMantissaAndAccuracy (num / den) (accuracyOfFraction (num % den) den)) (num / den) := by
  have pos : (0 : ℚ) < den := by exact_mod_cast positive
  have split : (num : ℚ) / den = (num / den : ℕ) + (num % den : ℕ) / (den : ℚ) := by
    rw [div_eq_iff pos.ne', add_mul, div_mul_cancel₀ _ pos.ne', mul_comm]
    exact_mod_cast (Nat.div_add_mod num den).symm
  have bound := Nat.mod_lt num positive
  generalize num / den = m at *
  generalize num % den = r at *
  rw [split, accuracyOfFraction]
  split
  · rename_i none
    rw [none, Nat.cast_zero, zero_div, add_zero]
    exact .whole m
  · rename_i some
    have some : (0 : ℚ) < r / den := div_pos (by exact_mod_cast Nat.pos_of_ne_zero some) pos
    have bound : (r : ℚ) / den < 1 := (div_lt_one pos).mpr (by exact_mod_cast bound)
    rcases lt_trichotomy (2 * r) den with less | same | more
    · rw [Nat.compare_eq_lt.mpr less]
      have half : (r : ℚ) / den < 1 / 2 := by
        rw [div_lt_div_iff₀ pos two_pos]
        exact_mod_cast (by omega : r * 2 < 1 * den)
      exact .below (by linarith) (by linarith)
    · rw [Nat.compare_eq_eq.mpr same]
      have half : (r : ℚ) / den = 1 / 2 := by
        rw [div_eq_div_iff pos.ne' two_ne_zero]
        exact_mod_cast (by omega : r * 2 = 1 * den)
      rw [half]
      exact .middle m
    · rw [Nat.compare_eq_gt.mpr more]
      have half : 1 / 2 < (r : ℚ) / den := by
        rw [div_lt_div_iff₀ two_pos pos]
        exact_mod_cast (by omega : 1 * den < r * 2)
      exact .above (by linarith) (by linarith)

theorem bounds (cut : Cut em q) : em.mantissa ≤ q ∧ q < em.mantissa + 1 := by
  cases cut with
  | whole m => exact ⟨le_rfl, by linarith⟩
  | below more less => exact ⟨more.le, by linarith⟩
  | middle m => exact ⟨by linarith, by linarith⟩
  | above more less => exact ⟨by linarith, less⟩

theorem shiftRightOne (cut : Cut em q) : Cut em.shiftRightOne (q / 2) := by
  have parity (m : ℕ) : (m % 2 = 0 ∧ (m : ℚ) = 2 * (m / 2 : ℕ)) ∨
      m % 2 = 1 ∧ (m : ℚ) = 2 * (m / 2 : ℕ) + 1 := by
    rcases Nat.mod_two_eq_zero_or_one m with even | odd
    · exact .inl ⟨even, by exact_mod_cast (by omega : m = 2 * (m / 2))⟩
    · exact .inr ⟨odd, by exact_mod_cast (by omega : m = 2 * (m / 2) + 1)⟩
  rcases parity em.mantissa with ⟨even, twice⟩ | ⟨odd, twice⟩
  · have halved : em.shiftRightOne =
        ⟨em.mantissa / 2, false, em.roundBit || em.stickyBit⟩ := by
      simp [ExtendedMantissa.shiftRightOne, even]
    rw [halved]
    cases cut with
    | whole m =>
      rw [show (m : ℚ) / 2 = (m / 2 : ℕ) by linarith]
      exact .whole _
    | below more less => exact .below (by linarith) (by linarith)
    | middle m => exact .below (by linarith) (by linarith)
    | above more less => exact .below (by linarith) (by linarith)
  · have halved : em.shiftRightOne =
        ⟨em.mantissa / 2, true, em.roundBit || em.stickyBit⟩ := by
      simp [ExtendedMantissa.shiftRightOne, odd]
    rw [halved]
    cases cut with
    | whole m =>
      rw [show (m : ℚ) / 2 = (m / 2 : ℕ) + 1 / 2 by linarith]
      exact .middle _
    | below more less => exact .above (by linarith) (by linarith)
    | middle m => exact .above (by linarith) (by linarith)
    | above more less => exact .above (by linarith) (by linarith)

theorem shiftRight (cut : Cut em q) (n : ℕ) : Cut (em >>> n) (q / 2 ^ n) := by
  induction n with
  | zero =>
    rw [pow_zero, div_one]
    exact cut
  | succ n ih =>
    rw [pow_succ, ← div_div]
    exact ih.shiftRightOne

/-- The two bits are enough to round to the nearest whole number. -/
theorem nearest (cut : Cut em q) : Nearest q (em.roundedMantissa : ℕ) := by
  cases cut with
  | whole m => exact .self m
  | @below m q more less =>
    change Nearest q (m : ℕ)
    apply Nearest.of_lt
    rw [Int.cast_natCast, abs_lt]
    constructor
    · linarith
    · linarith
  | middle m =>
    change Nearest _ (m + m % 2 : ℕ)
    have apart : |(m : ℚ) + 1 / 2 - ((m + m % 2 : ℕ) : ℤ)| = 1 / 2 := by
      rw [Int.cast_natCast, Nat.cast_add, add_sub_add_left_eq_sub]
      rcases Nat.mod_two_eq_zero_or_one m with even | odd
      · rw [even]
        norm_num
      · rw [odd]
        norm_num
    refine ⟨apart.le, fun _ => ?_⟩
    exact_mod_cast Nat.even_iff.mpr (by omega)
  | @above m q more less =>
    change Nearest q (m + 1 : ℕ)
    apply Nearest.of_lt
    rw [Int.cast_natCast, Nat.cast_add_one, abs_lt]
    constructor
    · linarith
    · linarith

end Cut

theorem Rounded.signed {v w : ℚ} (rounded : Rounded v w) (s : Sign) :
    Rounded (signed s v) (signed s w) := by
  cases s with
  | negative => exact rounded.neg
  | positive => exact rounded

section

variable {m n : ℕ} {e t : ℤ} {q : ℚ} {accuracy : Accuracy}

/-- The exponent that a mantissa is shifted to is that of its last place. -/
theorem targetExponent_eq (positive : 0 < m) (low : (m : ℚ) ≤ q) (high : q < m + 1) :
    Format.binary64.targetExponent (totalExponent m e) = lastPlace (q * 2 ^ e) := by
  have some : 0 < q := low.trans_lt' (by exact_mod_cast positive)
  have unit := two_zpow_pos e
  have atLeast : (2 : ℚ) ^ m.log2 ≤ m := by exact_mod_cast Nat.log2_self_le positive.ne'
  have below : (m : ℚ) + 1 ≤ 2 ^ (m.log2 + 1) := by exact_mod_cast Nat.lt_log2_self (n := m)
  have log : Int.log 2 |q * 2 ^ e| = m.log2 + e := by
    rw [abs_of_pos (mul_pos some unit)]
    apply le_antisymm
    · have less : q * 2 ^ e < 2 ^ ((m.log2 + 1 : ℕ) + e : ℤ) := by
        rw [zpow_add₀ two_ne_zero, zpow_natCast]
        exact mul_lt_mul_of_pos_right (high.trans_le below) unit
      have log := (Int.lt_zpow_iff_log_lt (b := 2) (by decide) (mul_pos some unit)).mp
        (by exact_mod_cast less)
      omega
    · apply (Int.zpow_le_iff_le_log (b := 2) (by decide) (mul_pos some unit)).mp
      push_cast
      rw [zpow_add₀ two_ne_zero, zpow_natCast]
      exact mul_le_mul_of_nonneg_right (atLeast.trans low) unit.le
  rw [lastPlace, log]
  change max ((m.log2 : ℤ) + 1 + e - 53) (-1074) = _
  congr 1
  omega

theorem targetExponent_cut (cut : Cut (.ofMantissaAndAccuracy m accuracy) q) (positive : 0 < q)
    (fine : e ≤ lastPlace (q * 2 ^ e)) :
    Format.binary64.targetExponent (totalExponent m e) = lastPlace (q * 2 ^ e) := by
  have mantissa : (ExtendedMantissa.ofMantissaAndAccuracy m accuracy).mantissa = m := by
    cases accuracy with
    | exact => rfl
    | inexact o => cases o <;> rfl
  have bounds := cut.bounds
  rw [mantissa] at bounds
  rcases Nat.eq_zero_or_pos m with rfl | some
  · have above := mul_pos positive (two_zpow_pos e)
    have less : q * 2 ^ e < 2 ^ e := by
      have below : q < 1 := by simpa using bounds.2
      exact (mul_lt_iff_lt_one_left (two_zpow_pos e)).mpr below
    have log := (Int.lt_zpow_iff_log_lt (b := 2) (by decide) above).mp (by exact_mod_cast less)
    rw [← abs_of_pos above] at log
    rw [lastPlace] at fine ⊢
    change max ((Nat.log2 0 : ℤ) + 1 + e - 53) (-1074) = _
    rw [Nat.log2_zero]
    omega
  · exact targetExponent_eq some bounds.1 bounds.2

/-- The first cut is at the last place. -/
theorem shift_cut (cut : Cut (.ofMantissaAndAccuracy m accuracy) q) (positive : 0 < q)
    (fine : e ≤ lastPlace (q * 2 ^ e)) : ∃ em,
    UnpackedFloat.shiftToTargetExponent .binary64 m e accuracy = (em, lastPlace (q * 2 ^ e)) ∧
      Cut em (q * 2 ^ e / 2 ^ lastPlace (q * 2 ^ e)) := by
  have shifted := cut.shiftRight (lastPlace (q * 2 ^ e) - e).toNat
  have place : e + (lastPlace (q * 2 ^ e) - e).toNat = lastPlace (q * 2 ^ e) := by omega
  have divided : q / 2 ^ (lastPlace (q * 2 ^ e) - e).toNat =
      q * 2 ^ e / 2 ^ lastPlace (q * 2 ^ e) := by
    generalize lastPlace (q * 2 ^ e) = t at place ⊢
    rw [div_eq_div_iff (by positivity) (two_zpow_pos _).ne', mul_assoc, ← zpow_natCast,
      ← zpow_add₀ two_ne_zero, place]
  rw [divided] at shifted
  refine ⟨_, ?_, shifted⟩
  rw [UnpackedFloat.shiftToTargetExponent, targetExponent_cut cut positive fine,
    UnpackedFloat.shiftToExponent, place]

theorem shift_short (bits : n < 2 ^ 53) (least : -1074 ≤ t) :
    UnpackedFloat.shiftToTargetExponent .binary64 n t .exact = (⟨n, false, false⟩, t) := by
  have log : n.log2 ≤ 52 := by
    rcases Nat.eq_zero_or_pos n with rfl | some
    · decide
    · exact Nat.le_of_lt_succ ((Nat.log2_lt some.ne').mpr bits)
  have target : Format.binary64.targetExponent (totalExponent n t) ≤ t := by
    change max ((n.log2 : ℤ) + 1 + t - 53) (-1074) ≤ t
    omega
  rw [UnpackedFloat.shiftToTargetExponent, UnpackedFloat.shiftToExponent,
    Int.toNat_of_nonpos (by omega)]
  exact Prod.ext rfl (add_zero t)

theorem shift_carried (least : -1074 ≤ t) :
    UnpackedFloat.shiftToTargetExponent .binary64 (2 ^ 53) t .exact =
      (⟨2 ^ 52, false, false⟩, t + 1) := by
  have target : Format.binary64.targetExponent (totalExponent (2 ^ 53) t) = t + 1 := by
    change max (((2 ^ 53).log2 : ℤ) + 1 + t - 53) (-1074) = t + 1
    rw [Nat.log2_two_pow]
    omega
  rw [UnpackedFloat.shiftToTargetExponent, target, UnpackedFloat.shiftToExponent,
    add_sub_cancel_left]
  rfl

/-- A magnitude that is cut fine enough is packed as the rounded magnitude. -/
theorem roundWithAccuracy_packs {s : Sign} (cut : Cut (.ofMantissaAndAccuracy m accuracy) q)
    (positive : 0 < q) (fine : e ≤ lastPlace (q * 2 ^ e))
    (small : |signed s (q * 2 ^ e)| < 2 ^ (1023 : ℤ)) : ∃ w, Rounded (signed s (q * 2 ^ e)) w ∧
      Packs (UnpackedFloat.roundWithAccuracy .binary64 s m e accuracy) w := by
  obtain ⟨em, shifted, cut⟩ := shift_cut cut positive fine
  have nearest := cut.nearest
  refine ⟨_, Rounded.signed ⟨_, nearest, rfl⟩ s, ?_⟩
  have above := mul_pos positive (two_zpow_pos e)
  rw [abs_signed, abs_of_pos above] at small
  generalize q * 2 ^ e = v at *
  have least : -1074 ≤ lastPlace v := le_max_right _ _
  have most := lastPlace_le_of_lt above small
  have bits : em.roundedMantissa ≤ 2 ^ 53 := by exact_mod_cast nearest_le nearest
  have leading : 2 ^ 52 ≤ em.roundedMantissa ∨ lastPlace v = -1074 := by
    rcases least.eq_or_lt with last | within
    · exact .inr last.symm
    · exact .inl (by exact_mod_cast le_nearest above within nearest)
  have cast : ((em.roundedMantissa : ℤ) : ℚ) = em.roundedMantissa := Int.cast_natCast _
  rw [cast]
  rcases bits.lt_or_eq with bits | carried
  · have standard : Standard em.roundedMantissa (lastPlace v) :=
      ⟨bits, least, by omega, leading⟩
    simp only [UnpackedFloat.roundWithAccuracy, shifted, shift_short bits least]
    split
    · rename_i none
      rw [none, Nat.cast_zero, zero_mul]
      cases s with
      | negative => exact packs_zero _
      | positive => exact packs_zero _
    · exact packs_finite standard _
  · have standard : Standard (2 ^ 52) (lastPlace v + 1) :=
      ⟨by decide, by omega, by omega, .inl le_rfl⟩
    have value : ((2 ^ 53 : ℕ) : ℚ) * 2 ^ lastPlace v = (2 ^ 52 : ℕ) * 2 ^ (lastPlace v + 1) := by
      rw [zpow_add_one₀ two_ne_zero]
      push_cast
      ring
    simp only [UnpackedFloat.roundWithAccuracy, shifted, carried, shift_carried least, value]
    exact packs_finite standard _

end

end MolecularTools.Binary64
