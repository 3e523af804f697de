import MolecularTools.Proofs.Decimal.General

/-! How long general number text can be: a sign, the leading digits, a point, and an exponent of three
digits at most. -/
namespace MolecularTools.Decimal

variable {x : Float} {negative : Bool} {d : Dyadic} {p : ℕ}

theorem least_power : (10 : ℚ) ^ (-324 : ℤ) ≤ 2 ^ (-1074 : ℤ) := by
  have powers : 2 ^ 1074 ≤ 10 ^ 324 := by decide +kernel
  rw [zpow_neg, zpow_neg]
  exact inv_anti₀ (zpow_pos two_pos _) (by exact_mod_cast powers)

theorem greatest_power : (2 : ℚ) ^ (53 : ℤ) * 2 ^ (971 : ℤ) < 10 ^ (309 : ℤ) := by
  have powers : 2 ^ 53 * 2 ^ 971 < 10 ^ 309 := by decide +kernel
  exact_mod_cast powers

theorem value_bounds (finite : read x = .finite negative d) (nonzero : d.mantissa ≠ 0) :
    (10 : ℚ) ^ (-324 : ℤ) ≤ d.value ∧ d.value < 10 ^ (309 : ℤ) := by
  obtain ⟨mantissa, least, most⟩ := bounds_of_read finite
  have one : (1 : ℚ) ≤ d.mantissa := by exact_mod_cast Nat.pos_of_ne_zero nonzero
  have bits : (d.mantissa : ℚ) < 2 ^ (53 : ℤ) := by exact_mod_cast mantissa
  have power : (0 : ℚ) < 2 ^ d.exponent := zpow_pos two_pos _
  constructor
  · calc (10 : ℚ) ^ (-324 : ℤ) ≤ 2 ^ (-1074 : ℤ) := least_power
      _ ≤ 2 ^ d.exponent := zpow_le_zpow_right₀ one_le_two least
      _ ≤ d.value := le_mul_of_one_le_left power.le one
  · calc d.value < 2 ^ (53 : ℤ) * 2 ^ d.exponent := mul_lt_mul_of_pos_right bits power
      _ ≤ 2 ^ (53 : ℤ) * 2 ^ (971 : ℤ) :=
        mul_le_mul_of_nonneg_left (zpow_le_zpow_right₀ one_le_two most) (zpow_pos two_pos _).le
      _ < 10 ^ (309 : ℤ) := greatest_power

/-- Three digits suffice for every exponent. -/
theorem natAbs_exponent_lt (finite : read x = .finite negative d) (nonzero : d.mantissa ≠ 0) :
    (significant d p).exponent.natAbs < 10 ^ 3 := by
  obtain ⟨low, high⟩ := value_bounds finite nonzero
  obtain ⟨below, above⟩ := enclosed (Dyadic.value_pos nonzero)
  have least : -324 < Int.log 10 d.value + 1 := by
    rw [← zpow_lt_zpow_iff_right₀ (a := (10 : ℚ)) (by norm_num)]
    exact low.trans_lt above
  have most : Int.log 10 d.value < 309 := by
    rw [← zpow_lt_zpow_iff_right₀ (a := (10 : ℚ)) (by norm_num)]
    exact below.trans_lt high
  rw [← leadingExponent_eq nonzero] at least most
  simp only [significant]
  split
  · dsimp only
    omega
  · dsimp only
    omega

theorem length_trimFraction_le (cs : List Char) : (trimFraction cs).length ≤ cs.length := by
  rw [trimFraction]
  split
  · rw [List.length_reverse]
    have zeros := (List.dropWhile_sublist (· == '0') (l := cs.reverse)).length_le
    have point := (List.dropWhile_sublist (· == '.') (l := cs.reverse.dropWhile (· == '0'))).length_le
    rw [List.length_reverse] at zeros
    exact point.trans zeros
  · exact le_rfl

theorem length_pointed_le (fraction : List Char) :
    (pointed fraction).length ≤ fraction.length + 1 := by
  rw [pointed]
  split
  · exact Nat.zero_le _
  · exact le_rfl

theorem length_paddedDigits_le {width n k : ℕ} (some : 0 < k) (small : n < 10 ^ k) :
    (paddedDigits width n).length ≤ max width k := by
  have digits := (Nat.length_toDigits_le_iff (b := 10) (by decide) some).mpr small
  rw [paddedDigits, List.length_append, List.length_replicate]
  omega

theorem length_exponentText_le {e : ℤ} (short : e.natAbs < 10 ^ 3) :
    (exponentText .table e).length ≤ 5 := by
  have digits : (paddedDigits 2 e.natAbs).length ≤ max 2 3 :=
    length_paddedDigits_le (by decide) short
  rw [exponentText, List.length_cons, List.length_cons]
  exact Nat.add_le_add_right digits 2

theorem length_cut_le (digits : List Char) (k : ℕ) :
    (digits.take k ++ pointed (digits.drop k)).length ≤ digits.length + 1 := by
  have fraction := length_pointed_le (digits.drop k)
  rw [List.length_drop] at fraction
  rw [List.length_append, List.length_take]
  omega

theorem length_magnitudeText_le (finite : read x = .finite negative d) (nonzero : d.mantissa ≠ 0)
    (some : 0 < p) : (magnitudeText .table d p).length ≤ p + 6 := by
  obtain ⟨low, high⟩ := significant_digits nonzero some
  have short := natAbs_exponent_lt (p := p) finite nonzero
  simp only [magnitudeText]
  split
  · have mantissa := length_cut_le (Nat.toDigits 10 (significant d p).digits) 1
    have exponent := length_exponentText_le short
    have trimmed := length_trimFraction_le (mantissaText (significant d p))
    rw [← mantissaText_eq, length_toDigits some low high] at mantissa
    rw [List.length_append]
    omega
  · rename_i near
    rw [not_or, not_le] at near
    have far : -4 ≤ (significant d p).exponent := not_lt.mp near.1
    let places := (p - 1 - (significant d p).exponent).toNat
    have places_eq : (places : ℤ) = p - 1 - (significant d p).exponent :=
      Int.toNat_of_nonneg (by omega)
    have same : scaled d places = (significant d p).digits := by
      rw [places_eq, scaled_significant nonzero some]
    have digits : (paddedDigits (places + 1) (scaled d places)).length ≤ max (places + 1) p :=
      length_paddedDigits_le some (same ▸ high)
    have whole := length_cut_le (paddedDigits (places + 1) (scaled d places))
      ((paddedDigits (places + 1) (scaled d places)).length - places)
    have trimmed := length_trimFraction_le (fixedText d places)
    rw [← fixedText_eq] at whole
    change (trimFraction (fixedText d places)).length ≤ p + 6
    omega

/-- A text is a sign and a bounded number of characters, whatever the value is. -/
theorem general_length (x : Float) (precision : ℕ) : ∃ negative body,
    (general x precision).toList = sign negative ++ body ∧ body.length ≤ max precision 1 + 6 := by
  rw [general, String.toList_ofList]
  have word : 3 ≤ max precision 1 + 6 := by omega
  cases finite : read x with
  | nan => exact ⟨false, "nan".toList, rfl, word⟩
  | infinite negative => exact ⟨negative, "inf".toList, rfl, word⟩
  | finite negative d =>
    refine ⟨negative, _, rfl, ?_⟩
    split
    · exact Nat.one_le_of_lt word
    · rename_i nonzero
      exact length_magnitudeText_le finite nonzero (by omega)

end MolecularTools.Decimal
