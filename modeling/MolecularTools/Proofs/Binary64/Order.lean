import Mathlib.Algebra.Order.Field.Power
import Mathlib.Order.TypeTags
import Mathlib.Tactic.Linarith
import Mathlib.Tactic.Positivity
import Mathlib.Tactic.Ring
import MolecularTools.Proofs.Decimal.Binary64

/-! The order of binary64 values. A value that is a number stands for a rational number or one of
two infinities, and values compare as what they stand for; NaN compares with nothing. -/
namespace MolecularTools.Binary64

open Float.Model (Format UnpackedFloat)
open Float.Model.UnpackedFloat (Sign)

abbrev Extended := WithBot (WithTop ℚ)

namespace Extended

def ofRat (q : ℚ) : Extended := ((q : WithTop ℚ) : WithBot (WithTop ℚ))

variable {a b : ℚ}

@[simp] theorem ofRat_le_ofRat : ofRat a ≤ ofRat b ↔ a ≤ b := by
  rw [ofRat, ofRat, WithBot.coe_le_coe, WithTop.coe_le_coe]

@[simp] theorem ofRat_ne_top : ofRat a ≠ ⊤ := by
  rw [ofRat, ← WithBot.coe_top, Ne, WithBot.coe_inj]
  exact WithTop.coe_ne_top

@[simp] theorem ofRat_ne_bot : ofRat a ≠ ⊥ := WithBot.coe_ne_bot

end Extended

def signed : Sign → ℚ → ℚ
  | .negative, v => -v
  | .positive, v => v

theorem abs_signed (s : Sign) (v : ℚ) : |signed s v| = |v| := by
  cases s with
  | negative => exact abs_neg v
  | positive => rfl

/-- What a value stands for. The two zeros stand for the same number. -/
@[simp] def extended : UnpackedFloat → Option Extended
  | .notANumber => none
  | .infinity .negative => some ⊥
  | .infinity .positive => some ⊤
  | .zero _ => some (.ofRat 0)
  | .finite s m e _ => some (.ofRat (signed s (m * 2 ^ e)))

/-- The fields of a finite value as the format has them: the leading bit is missing at the least
exponent only. -/
structure Standard (m : ℕ) (e : ℤ) : Prop where
  bits : m < 2 ^ 53
  least : -1074 ≤ e
  most : e ≤ 971
  leading : 2 ^ 52 ≤ m ∨ e = -1074

def Canonical (x : UnpackedFloat) : Prop :=
  ∀ s m e positive, x = .finite s m e positive → Standard m e

section

variable {m m' : ℕ} {e e' : ℤ}

theorem magnitude_pos (positive : 0 < m) (e : ℤ) : (0 : ℚ) < m * 2 ^ e := by
  have some : (0 : ℚ) < m := by exact_mod_cast positive
  positivity

/-- Of two magnitudes, the one with the smaller exponent is smaller. -/
theorem magnitude_lt (standard : Standard m e) (standard' : Standard m' e') (less : e < e') :
    (m : ℚ) * 2 ^ e < m' * 2 ^ e' := by
  have full : 2 ^ 52 ≤ m' := standard'.leading.resolve_right fun least =>
    absurd standard.least (by omega)
  have bits : (m : ℚ) < 2 ^ 53 := by exact_mod_cast standard.bits
  have step : (2 : ℚ) ^ (e + 1) ≤ 2 ^ e' := zpow_le_zpow_right₀ one_le_two less
  have full : (2 : ℚ) ^ 52 ≤ m' := by exact_mod_cast full
  calc (m : ℚ) * 2 ^ e < 2 ^ 53 * 2 ^ e := mul_lt_mul_of_pos_right bits (by positivity)
    _ = 2 ^ 52 * 2 ^ (e + 1) := by
      rw [zpow_add_one₀ two_ne_zero]
      ring
    _ ≤ 2 ^ 52 * 2 ^ e' := mul_le_mul_of_nonneg_left step (by positivity)
    _ ≤ m' * 2 ^ e' := mul_le_mul_of_nonneg_right full (by positivity)

/-- To compare exponents first and mantissas then is to compare magnitudes. -/
theorem isLE_magnitudes (standard : Standard m e) (standard' : Standard m' e') :
    ((compare e e').then (compare m m')).isLE = true ↔ (m : ℚ) * 2 ^ e ≤ m' * 2 ^ e' := by
  rcases lt_trichotomy e e' with less | rfl | more
  · have below := magnitude_lt standard standard' less
    rw [compare_lt_iff_lt.mpr less]
    exact iff_of_true rfl below.le
  · have scale : (0 : ℚ) < 2 ^ e := by positivity
    rw [compare_eq_iff_eq.mpr rfl, Ordering.eq_then, Nat.isLE_compare,
      mul_le_mul_iff_of_pos_right scale, Nat.cast_le]
  · have above := magnitude_lt standard' standard more
    rw [compare_gt_iff_gt.mpr more]
    exact iff_of_false Bool.false_ne_true above.not_ge

theorem le_finite {s s' : Sign} (standard : Standard m e) (standard' : Standard m' e')
    (positive : 0 < m) (positive' : 0 < m') :
    UnpackedFloat.le (.finite s m e positive) (.finite s' m' e' positive') = true ↔
      signed s (m * 2 ^ e) ≤ signed s' (m' * 2 ^ e') := by
  have above := magnitude_pos positive e
  have above' := magnitude_pos positive' e'
  cases s with
  | negative =>
    cases s' with
    | negative =>
      have swapped : UnpackedFloat.le (.finite .negative m e positive)
          (.finite .negative m' e' positive') = ((compare e' e).then (compare m' m)).isLE := by
        rw [← Int.compare_swap, ← Nat.compare_swap, ← Ordering.swap_then]
        rfl
      rw [swapped, isLE_magnitudes standard' standard]
      simp [signed]
    | positive =>
      refine iff_of_true rfl ?_
      simp only [signed]
      linarith
  | positive =>
    cases s' with
    | negative =>
      refine iff_of_false Bool.false_ne_true ?_
      simp only [signed]
      linarith
    | positive => exact isLE_magnitudes standard standard'

theorem le_zero_finite (s s' : Sign) (positive : 0 < m) :
    UnpackedFloat.le (.zero s) (.finite s' m e positive) = true ↔
      0 ≤ signed s' (m * 2 ^ e) := by
  have above := magnitude_pos positive e
  cases s' with
  | negative => simp [UnpackedFloat.le, UnpackedFloat.compare, signed, above]
  | positive => simp [UnpackedFloat.le, UnpackedFloat.compare, signed, above.le]

theorem le_finite_zero (s s' : Sign) (positive : 0 < m) :
    UnpackedFloat.le (.finite s m e positive) (.zero s') = true ↔
      signed s (m * 2 ^ e) ≤ 0 := by
  have above := magnitude_pos positive e
  cases s with
  | negative => simp [UnpackedFloat.le, UnpackedFloat.compare, signed, above.le]
  | positive => simp [UnpackedFloat.le, UnpackedFloat.compare, signed, above]

end

theorem le_iff_extended {x y : UnpackedFloat} (canonical : Canonical x) (canonical' : Canonical y) :
    x.le y = true ↔ ∃ a ∈ extended x, ∃ b ∈ extended y, a ≤ b := by
  cases x with
  | notANumber => simp [UnpackedFloat.le, UnpackedFloat.compare]
  | infinity s =>
    cases s with
    | negative =>
      cases y with
      | infinity s' =>
        cases s' with
        | negative => exact iff_of_true rfl ⟨⊥, rfl, ⊥, rfl, le_rfl⟩
        | positive => exact iff_of_true rfl ⟨⊥, rfl, ⊤, rfl, bot_le⟩
      | _ => simp [UnpackedFloat.le, UnpackedFloat.compare]
    | positive =>
      cases y with
      | infinity s' =>
        cases s' with
        | negative => exact iff_of_false Bool.false_ne_true (by simp)
        | positive => exact iff_of_true rfl ⟨⊤, rfl, ⊤, rfl, le_rfl⟩
      | _ => simp [UnpackedFloat.le, UnpackedFloat.compare]
  | zero s =>
    cases y with
    | infinity s' => cases s' <;> simp [UnpackedFloat.le, UnpackedFloat.compare]
    | finite s' m' e' positive' => simp [le_zero_finite]
    | _ => simp [UnpackedFloat.le, UnpackedFloat.compare]
  | finite s m e positive =>
    cases y with
    | infinity s' => cases s' <;> simp [UnpackedFloat.le, UnpackedFloat.compare]
    | finite s' m' e' positive' =>
      simp [le_finite (canonical _ _ _ _ rfl) (canonical' _ _ _ _ rfl)]
    | zero s' => simp [le_finite_zero]
    | notANumber => simp [UnpackedFloat.le, UnpackedFloat.compare]

theorem toNat_implicit (fraction : BitVec 52) :
    (1#1 ++ fraction).toNat = 2 ^ 52 + fraction.toNat := by
  rw [BitVec.toNat_append, ← Nat.shiftLeft_add_eq_or_of_lt fraction.isLt]
  rfl

theorem canonical_unpack (x : Float) : Canonical x.toModel.unpack := by
  intro s m e positive unpacked
  rw [Float.Model.unpack, UnpackedFloat.unpack] at unpacked
  generalize (x.toModel.toBits.toBitVec : BitVec Format.binary64.numBits) = b at unpacked
  have fraction : (@UnpackedFloat.unpackMantissa .binary64 b).toNat < 2 ^ 52 := BitVec.isLt _
  have exponent : (@UnpackedFloat.unpackExponent .binary64 b).toNat < 2 ^ 11 := BitVec.isLt _
  split at unpacked
  · split at unpacked
    · contradiction
    · contradiction
  · rename_i top
    split at unpacked
    · rename_i zero
      split at unpacked
      · contradiction
      · cases unpacked
        rw [zero]
        exact ⟨by omega, by decide, by decide, .inr (by decide)⟩
    · rename_i nonzero
      have low : (@UnpackedFloat.unpackExponent .binary64 b).toNat ≠ 0 := fun same =>
        nonzero (BitVec.eq_of_toNat_eq same)
      have high : (@UnpackedFloat.unpackExponent .binary64 b).toNat ≠ 2047 := fun same =>
        top (BitVec.eq_of_toNat_eq same)
      have bias : ((Format.binary64.exponentBias +
          Format.binary64.mantissaBitsWithoutImplicit : ℕ) : ℤ) = 1075 := by decide
      cases unpacked
      rw [toNat_implicit]
      refine ⟨by omega, ?_, ?_, .inl (by omega)⟩
      · omega
      · omega

variable {x y z : Float}

theorem isNaN_iff_extended : x.isNaN = true ↔ extended x.toModel.unpack = none := by
  change x.toModel.unpack.isNaN = true ↔ _
  rw [UnpackedFloat.isNaN_iff]
  cases x.toModel.unpack with
  | infinity s => cases s <;> simp
  | _ => simp

/-- Values compare as the extended numbers that they stand for. -/
theorem le_iff : x ≤ y ↔
    ∃ a ∈ extended x.toModel.unpack, ∃ b ∈ extended y.toModel.unpack, a ≤ b :=
  decide_eq_true_iff.trans (le_iff_extended (canonical_unpack x) (canonical_unpack y))

theorem le_trans (first : x ≤ y) (second : y ≤ z) : x ≤ z := by
  rw [le_iff] at first second ⊢
  obtain ⟨a, left, b, middle, below⟩ := first
  obtain ⟨b', middle', c, right, above⟩ := second
  obtain rfl : b = b' := Option.some.inj (middle.symm.trans middle')
  exact ⟨a, left, c, right, below.trans above⟩

theorem le_self_iff : x ≤ x ↔ x.isNaN = false := by
  rw [le_iff, ← Bool.not_eq_true, isNaN_iff_extended]
  cases extended x.toModel.unpack with
  | none => simp
  | some a => simp

theorem le_or_ge (number : x.isNaN = false) (number' : y.isNaN = false) : x ≤ y ∨ y ≤ x := by
  rw [← le_self_iff, le_iff] at number number'
  obtain ⟨a, left, -⟩ := number
  obtain ⟨b, right, -⟩ := number'
  rw [le_iff, le_iff]
  rcases le_total a b with below | above
  · exact .inl ⟨a, left, b, right, below⟩
  · exact .inr ⟨b, right, a, left, above⟩

theorem isNaN_of_le (less : x ≤ y) : x.isNaN = false ∧ y.isNaN = false := by
  rw [← le_self_iff, ← le_self_iff, le_iff, le_iff]
  obtain ⟨a, left, b, right, -⟩ := le_iff.mp less
  exact ⟨⟨a, left, a, left, le_rfl⟩, b, right, b, right, le_rfl⟩

end MolecularTools.Binary64
