import MolecularTools.Proofs.Binary64.Mantissa

/-! Arithmetic on binary64 values that are numbers. As long as the exact result is within reach of
the format, an operation gives the exact result, rounded. -/
namespace MolecularTools.Binary64

open Float.Model (Format UnpackedFloat totalExponent)
open Float.Model.UnpackedFloat (Sign decreaseExponent divCore)

section

variable {s s' : Sign} {m m' : ℕ} {e e' t : ℤ} {v v' a b : ℚ} {u u' : UnpackedFloat}

theorem signed_mul : signed (s * s') (v * v') = signed s v * signed s' v' := by
  cases s with
  | negative =>
    cases s' with
    | negative => exact (neg_mul_neg v v').symm
    | positive => exact (neg_mul v v').symm
  | positive =>
    cases s' with
    | negative => exact (mul_neg v v').symm
    | positive => rfl

theorem signed_div : signed (s / s') (v / v') = signed s v / signed s' v' := by
  cases s with
  | negative =>
    cases s' with
    | negative => exact (neg_div_neg_eq v v').symm
    | positive => exact (neg_div v' v).symm
  | positive =>
    cases s' with
    | negative => exact (div_neg v).symm
    | positive => rfl

theorem signed_neg : signed (-s) v = -signed s v := by
  cases s with
  | negative => exact (neg_neg v).symm
  | positive => rfl

theorem decreaseExponent_snd : (decreaseExponent m e t).2 = min e t := by
  change e - (e - t).toNat = _
  omega

/-- The number stays the same. -/
theorem decreaseExponent_value :
    ((decreaseExponent m e t).1 : ℚ) * 2 ^ min e t = m * 2 ^ e := by
  have shifted : (decreaseExponent m e t).1 = m * 2 ^ (e - t).toNat := Nat.shiftLeft_eq _ _
  rw [shifted]
  push_cast
  rw [mul_assoc, ← zpow_natCast, ← zpow_add₀ two_ne_zero]
  congr 2
  omega

theorem apply_eq_signed (s : Sign) (n : ℕ) : (s.apply n : ℚ) = signed s n := by
  cases s with
  | negative =>
    simp only [Sign.apply, Binary64.signed]
    push_cast
    rfl
  | positive => rfl

theorem signed_mul_right : signed s v * v' = signed s (v * v') := by
  cases s with
  | negative => exact neg_mul v v'
  | positive => rfl

theorem le_lastPlace_magnitude (leading : 2 ^ 52 ≤ m ∨ e ≤ -1074) :
    e ≤ lastPlace (m * 2 ^ e) := by
  rcases leading with full | least
  · apply le_lastPlace
    have full : (2 : ℚ) ^ 52 ≤ m := by exact_mod_cast full
    rw [zpow_add₀ two_ne_zero]
    exact mul_le_mul_of_nonneg_right (by exact_mod_cast full) (two_zpow_pos e).le
  · exact least.trans (le_max_right _ _)

/-- A magnitude that may be cut too short is made longer before it is rounded. -/
theorem round_packs (positive : 0 < m) (small : |signed s (m * 2 ^ e)| < 2 ^ (1023 : ℤ)) :
    ∃ w, Rounded (signed s (m * 2 ^ e)) w ∧ Packs (UnpackedFloat.round .binary64 s m e) w := by
  have target : Format.binary64.targetExponent (totalExponent m e) = lastPlace (m * 2 ^ e) :=
    targetExponent_eq positive le_rfl (lt_add_one _)
  have value : ((decreaseExponent m e (lastPlace (m * 2 ^ e))).1 : ℚ) *
      2 ^ (decreaseExponent m e (lastPlace (m * 2 ^ e))).2 = m * 2 ^ e := by
    rw [decreaseExponent_snd, decreaseExponent_value]
  have fine : (decreaseExponent m e (lastPlace (m * 2 ^ e))).2 ≤ lastPlace (m * 2 ^ e) := by
    rw [decreaseExponent_snd]
    exact min_le_right _ _
  have above := magnitude_pos positive e
  simp only [UnpackedFloat.round, target]
  generalize decreaseExponent m e (lastPlace (m * 2 ^ e)) = finer at value fine ⊢
  rw [← value] at above fine small ⊢
  exact roundWithAccuracy_packs (.exact finer.1)
    (pos_of_mul_pos_left above (two_zpow_pos finer.2).le) fine small

theorem normalize_apply (s : Sign) (positive : 0 < m) (zero : Sign) :
    UnpackedFloat.normalize .binary64 (s.apply m) e zero = UnpackedFloat.round .binary64 s m e := by
  cases s with
  | negative =>
    have below : Sign.negative.apply m < 0 := by
      change -(m : ℤ) < 0
      omega
    rw [UnpackedFloat.normalize, Int.compare_eq_lt.mpr below]
    simp only [Sign.apply, neg_neg, Int.toNat_natCast]
  | positive =>
    have above : 0 < Sign.positive.apply m := by
      change 0 < (m : ℤ)
      omega
    rw [UnpackedFloat.normalize, Int.compare_eq_gt.mpr above]
    rfl

theorem normalize_packs (c : ℤ) (e : ℤ) (zero : Sign) (small : |(c : ℚ) * 2 ^ e| < 2 ^ (1023 : ℤ)) :
    ∃ w, Rounded (c * 2 ^ e) w ∧ Packs (UnpackedFloat.normalize .binary64 c e zero) w := by
  rcases eq_or_ne c 0 with rfl | nonzero
  · exact ⟨0, by simpa using Rounded.zero, packs_zero zero⟩
  · have split : ∃ (s : Sign) (n : ℕ), c = s.apply n := by
      obtain ⟨n, rfl | rfl⟩ := Int.eq_nat_or_neg c
      · exact ⟨.positive, n, rfl⟩
      · exact ⟨.negative, n, rfl⟩
    obtain ⟨s, n, rfl⟩ := split
    have some : 0 < n := by
      apply Nat.pos_of_ne_zero
      rintro rfl
      cases s with
      | negative => exact nonzero rfl
      | positive => exact nonzero rfl
    rw [apply_eq_signed, signed_mul_right] at small ⊢
    rw [normalize_apply s some]
    exact round_packs some small

/-- What the format has is not rounded. -/
theorem Number.rounded (number : Number u a) : Rounded a a := by
  cases number with
  | zero s => exact .zero
  | @finite s m e standard positive =>
    have bits : |(m : ℤ)| < 2 ^ 53 := by exact_mod_cast standard.bits
    exact (Rounded.self bits standard.least).signed s

theorem Number.add (one : Number u a) (other : Number u' b) (small : |a + b| < 2 ^ (1023 : ℤ)) :
    ∃ w, Rounded (a + b) w ∧ Packs (u.add .binary64 u') w := by
  cases one with
  | zero s =>
    rw [zero_add]
    refine ⟨b, other.rounded, ?_⟩
    cases other with
    | zero s' =>
      simp only [UnpackedFloat.add]
      split
      · exact packs_zero _
      · exact packs_zero _
    | finite s' standard' positive' => exact packs_finite standard' positive'
  | @finite s m e standard positive =>
    cases other with
    | zero s' =>
      rw [add_zero]
      exact ⟨_, (Number.finite s standard positive).rounded, packs_finite standard positive⟩
    | @finite s' m' e' standard' positive' =>
      have total : ((s.apply (decreaseExponent m e (min e e')).1 +
          s'.apply (decreaseExponent m' e' (min e e')).1 : ℤ) : ℚ) * 2 ^ min e e' =
            signed s (m * 2 ^ e) + signed s' (m' * 2 ^ e') := by
        rw [Int.cast_add, add_mul, apply_eq_signed, apply_eq_signed, signed_mul_right,
          signed_mul_right, ← decreaseExponent_value (m := m) (e := e) (t := min e e'),
          ← decreaseExponent_value (m := m') (e := e') (t := min e e')]
        simp
      rw [← total] at small ⊢
      exact normalize_packs _ _ .positive small

theorem Number.neg (number : Number u a) : Number u.neg (-a) := by
  cases number with
  | zero s =>
    rw [neg_zero]
    exact .zero _
  | finite s standard positive =>
    rw [← signed_neg]
    exact .finite _ standard positive

theorem apply_neg (s : Sign) (c : ℤ) : (-s).apply c = -s.apply c := by
  cases s with
  | negative => exact (neg_neg c).symm
  | positive => rfl

/-- A difference is the sum with the opposite. -/
theorem Number.sub (one : Number u a) (other : Number u' b) (small : |a - b| < 2 ^ (1023 : ℤ)) :
    ∃ w, Rounded (a - b) w ∧ Packs (u.sub .binary64 u') w := by
  have opposite : u.sub .binary64 u' = u.add .binary64 u'.neg := by
    cases one with
    | zero s =>
      cases other with
      | zero s' => rfl
      | finite s' standard' positive' => rfl
    | finite s standard positive =>
      cases other with
      | zero s' => rfl
      | finite s' standard' positive' =>
        change UnpackedFloat.normalize .binary64 (_ - _) _ _ =
          UnpackedFloat.normalize .binary64 (_ + _) _ _
        rw [sub_eq_add_neg, apply_neg]
  rw [sub_eq_add_neg] at small ⊢
  rw [opposite]
  exact one.add other.neg small

theorem Number.mul (one : Number u a) (other : Number u' b) (small : |a * b| < 2 ^ (1023 : ℤ)) :
    ∃ w, Rounded (a * b) w ∧ Packs (u.mul .binary64 u') w := by
  cases one with
  | zero s =>
    rw [zero_mul]
    refine ⟨0, .zero, ?_⟩
    cases other with
    | zero s' => exact packs_zero _
    | finite s' standard' positive' => exact packs_zero _
  | @finite s m e standard positive =>
    cases other with
    | zero s' =>
      rw [mul_zero]
      exact ⟨0, .zero, packs_zero _⟩
    | @finite s' m' e' standard' positive' =>
      have some : 0 < m * m' := Nat.mul_pos positive positive'
      have value : ((m * m' : ℕ) : ℚ) * 2 ^ (e + e') = m * 2 ^ e * (m' * 2 ^ e') := by
        rw [zpow_add₀ two_ne_zero]
        push_cast
        ring
      have leading : 2 ^ 52 ≤ m * m' ∨ e + e' ≤ -1074 := by
        rcases standard.leading with full | least
        · exact .inl (full.trans (Nat.le_mul_of_pos_right m positive'))
        · rcases standard'.leading with full' | least'
          · exact .inl (full'.trans (Nat.le_mul_of_pos_left m' positive))
          · exact .inr (by omega)
      rw [← signed_mul, ← value] at small ⊢
      exact roundWithAccuracy_packs (.exact (m * m')) (by exact_mod_cast some)
        (le_lastPlace_magnitude leading) small

/-- The quotient of two mantissas is cut where it has at least as many places as are kept. -/
theorem divCore_fine (positive : 0 < m) (positive' : 0 < m') (e e' : ℤ) :
    min (e - e') (Format.binary64.targetExponent (totalExponent m e - totalExponent m' e')) ≤
      lastPlace (m * 2 ^ e / (m' * 2 ^ e')) := by
  have atLeast : (2 : ℚ) ^ m.log2 ≤ m := by exact_mod_cast Nat.log2_self_le positive.ne'
  have below : (m' : ℚ) ≤ 2 ^ (m'.log2 + 1) := by exact_mod_cast (Nat.lt_log2_self (n := m')).le
  have unit := two_zpow_pos e
  have unit' := two_zpow_pos e'
  have quotient : (2 : ℚ) ^ ((m.log2 : ℤ) + e - (m'.log2 + 1 + e')) ≤ m * 2 ^ e / (m' * 2 ^ e') := by
    rw [zpow_sub₀ two_ne_zero, zpow_add₀ two_ne_zero, zpow_add₀ two_ne_zero, zpow_natCast]
    exact div_le_div₀ (by positivity) (mul_le_mul_of_nonneg_right atLeast unit.le)
      (magnitude_pos positive' e') (mul_le_mul_of_nonneg_right (by exact_mod_cast below) unit'.le)
  rw [← add_sub_cancel 52 ((m.log2 : ℤ) + e - (m'.log2 + 1 + e'))] at quotient
  have place := le_lastPlace quotient
  have least : -1074 ≤ lastPlace (m * 2 ^ e / (m' * 2 ^ e')) := le_max_right _ _
  change min (e - e') (max ((m.log2 : ℤ) + 1 + e - (m'.log2 + 1 + e') - 53) (-1074)) ≤ _
  omega

/-- What is cut there is the quotient of the magnitudes. -/
theorem divCore_cut (positive : 0 < m) (positive' : 0 < m') (e e' : ℤ) : ∃ q : ℚ,
    Cut (.ofMantissaAndAccuracy (divCore .binary64 m e m' e').1 (divCore .binary64 m e m' e').2.2) q ∧
      0 < q ∧ q * 2 ^ (divCore .binary64 m e m' e').2.1 = m * 2 ^ e / (m' * 2 ^ e') := by
  have lower := min_le_left (e - e')
    (Format.binary64.targetExponent (totalExponent m e - totalExponent m' e'))
  rw [divCore]
  dsimp only
  generalize min (e - e') _ = place at lower ⊢
  have some' : (0 : ℚ) < m' := by exact_mod_cast positive'
  have some : 0 < m <<< (e - e' - place).toNat := Nat.shiftLeft_pos_iff.mpr positive
  refine ⟨_, .fraction _ positive', div_pos (by exact_mod_cast some) some', ?_⟩
  have split : e = (e - e' - place).toNat + place + e' := by omega
  have scaled : (2 : ℚ) ^ e = 2 ^ (e - e' - place).toNat * 2 ^ place * 2 ^ e' := by
    rw [← zpow_natCast, ← zpow_add₀ two_ne_zero, ← zpow_add₀ two_ne_zero, ← split]
  rw [Nat.shiftLeft_eq, scaled]
  push_cast
  field_simp

theorem Number.div (one : Number u a) (other : Number u' b) (nonzero : b ≠ 0)
    (small : |a / b| < 2 ^ (1023 : ℤ)) :
    ∃ w, Rounded (a / b) w ∧ Packs (u.div .binary64 u') w := by
  cases other with
  | zero s' => contradiction
  | @finite s' m' e' standard' positive' =>
    cases one with
    | zero s =>
      rw [zero_div]
      exact ⟨0, .zero, packs_zero _⟩
    | @finite s m e standard positive =>
      obtain ⟨q, cut, above, value⟩ := divCore_cut positive positive' e e'
      have fine := divCore_fine positive positive' e e'
      rw [← signed_div, ← value] at small ⊢
      rw [← value] at fine
      exact roundWithAccuracy_packs cut above fine small

end

def Denotes (x : Float) (v : ℚ) : Prop := Number x.toModel.unpack v

namespace Denotes

variable {x y : Float} {a b : ℚ}

theorem le_iff (one : Denotes x a) (other : Denotes y b) : x ≤ y ↔ a ≤ b := by
  rw [Binary64.le_iff, one.extended, other.extended]
  simp

theorem rounded (denotes : Denotes x a) : Rounded a a := Number.rounded denotes

theorem add (one : Denotes x a) (other : Denotes y b) (small : |a + b| < 2 ^ (1023 : ℤ)) :
    ∃ w, Rounded (a + b) w ∧ Denotes (x + y) w :=
  Number.add one other small

theorem sub (one : Denotes x a) (other : Denotes y b) (small : |a - b| < 2 ^ (1023 : ℤ)) :
    ∃ w, Rounded (a - b) w ∧ Denotes (x - y) w :=
  Number.sub one other small

theorem mul (one : Denotes x a) (other : Denotes y b) (small : |a * b| < 2 ^ (1023 : ℤ)) :
    ∃ w, Rounded (a * b) w ∧ Denotes (x * y) w :=
  Number.mul one other small

theorem div (one : Denotes x a) (other : Denotes y b) (nonzero : b ≠ 0)
    (small : |a / b| < 2 ^ (1023 : ℤ)) : ∃ w, Rounded (a / b) w ∧ Denotes (x / y) w :=
  Number.div one other nonzero small

end Denotes

theorem denotes_one : Denotes (Float.exactlyRepresentablePowersOfTen[0]) 1 := by
  have unpacked : (Float.exactlyRepresentablePowersOfTen[0]).toModel.unpack =
      .finite .positive (2 ^ 52) (-52) (by decide) := rfl
  have value : (1 : ℚ) = signed .positive ((2 ^ 52 : ℕ) * 2 ^ (-52 : ℤ)) := by
    simp only [signed]
    norm_num
  rw [Denotes, unpacked, value]
  exact .finite .positive ⟨by decide, by decide, by decide, .inl le_rfl⟩ _

/-- Natural numbers of at most 53 bits are taken over as they are. -/
theorem denotes_ofNat {n : ℕ} (bits : n < 2 ^ 53) : Denotes (Float.ofNat n) n := by
  have product : Float.ofNat n = n.toUInt64.toFloat * Float.exactlyRepresentablePowersOfTen[0] := by
    rw [Float.ofNat]
    change Float.ofScientific _ _ _ = _
    rw [Float.ofScientific, dif_pos ⟨bits, by decide⟩]
    rfl
  have count : (n.toUInt64.toNat : ℤ) = n := by
    rw [Nat.toUInt64, UInt64.toNat_ofNat']
    omega
  have small : |(n : ℚ)| < 2 ^ (1023 : ℤ) := by
    rw [Nat.abs_cast]
    have bits : (n : ℚ) < 2 ^ (53 : ℤ) := by exact_mod_cast bits
    exact bits.trans (zpow_lt_zpow_right₀ one_lt_two (by decide))
  have value : ((n.toUInt64.toNat : ℤ) : ℚ) * 2 ^ (0 : ℤ) = n := by
    rw [count, zpow_zero, mul_one, Int.cast_natCast]
  obtain ⟨w, rounded, packs⟩ := normalize_packs n.toUInt64.toNat 0 .positive (value ▸ small)
  have exact : Rounded (n : ℚ) n := by
    have kept := Rounded.self (c := n) (k := 0) (by simpa using bits) (by decide)
    simpa using kept
  rw [value] at rounded
  obtain rfl := rounded.unique exact
  have whole : Denotes n.toUInt64.toFloat n := packs
  obtain ⟨w, rounded, denotes⟩ := whole.mul denotes_one (by rwa [mul_one])
  rw [mul_one] at rounded
  rw [product, ← rounded.unique exact]
  exact denotes

end MolecularTools.Binary64
