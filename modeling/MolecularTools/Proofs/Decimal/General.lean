import Mathlib.Data.List.DropRight
import Mathlib.Tactic.FieldSimp
import MolecularTools.Proofs.Decimal.Binary64
import MolecularTools.Proofs.Decimal.Denotation
import MolecularTools.Proofs.Decimal.Numerals
import MolecularTools.Proofs.Decimal.Rounding

/-! General number text denotes the value rounded to its leading digits, in the style that the
exponent after rounding picks, with no zeros to spare. -/
namespace MolecularTools.Decimal

variable {whole fraction : List Char}

theorem not_point {c : Char} (digit : c.isDigit = true) : ¬(c == '.') = true := by
  rw [beq_iff_eq]
  rintro rfl
  exact absurd digit (by decide)

theorem dropZeros_append_replicate (fraction : List Char) :
    ∃ k, fraction = dropZeros fraction ++ List.replicate k '0' := by
  refine ⟨(fraction.rtakeWhile (· == '0')).length, ?_⟩
  have zeros : fraction.rtakeWhile (· == '0') =
      List.replicate (fraction.rtakeWhile (· == '0')).length '0' :=
    List.eq_replicate_of_mem fun c member =>
      eq_of_beq (List.mem_rtakeWhile_imp (p := (· == '0')) member)
  rw [← zeros]
  exact List.rdropWhile_append_rtakeWhile.symm

theorem getLast?_dropZeros (fraction : List Char) : (dropZeros fraction).getLast? ≠ some '0' := by
  intro zero
  obtain ⟨some, last⟩ := List.mem_getLast?_eq_getLast zero
  exact List.rdropWhile_last_not (· == '0') fraction some (beq_iff_eq.mpr last.symm)

theorem isDigit_of_mem_dropZeros {c : Char} (digits : ∀ c ∈ fraction, c.isDigit = true)
    (member : c ∈ dropZeros fraction) : c.isDigit = true :=
  digits c ((List.rdropWhile_prefix (· == '0') fraction).subset member)

theorem rdropWhile_append_cons {p : α → Bool} {b : α} (stays : p b = false) (front back : List α) :
    (front ++ b :: back).rdropWhile p = front ++ b :: back.rdropWhile p := by
  simp [List.rdropWhile, dropWhile_append_cons stays]

theorem rdropWhile_digits (digits : ∀ c ∈ whole, c.isDigit = true) :
    whole.rdropWhile (· == '.') = whole :=
  List.rdropWhile_eq_self_iff.mpr fun some => not_point (digits _ (List.getLast_mem some))

/-- Zeros go from the end of the fraction, and the point with the whole of it. -/
theorem trimFraction_pointed (digits : ∀ c ∈ whole, c.isDigit = true)
    (digits' : ∀ c ∈ fraction, c.isDigit = true) :
    trimFraction (whole ++ pointed fraction) = whole ++ pointed (dropZeros fraction) := by
  by_cases empty : fraction = []
  · subst empty
    have plain : ¬whole.contains '.' = true := fun point =>
      not_point (digits '.' (List.contains_iff_mem.mp point)) rfl
    rw [show pointed (dropZeros []) = [] from rfl, show pointed [] = [] from rfl, List.append_nil,
      trimFraction, if_neg plain]
  · have trimmed : trimFraction (whole ++ pointed fraction) =
        ((whole ++ '.' :: fraction).rdropWhile (· == '0')).rdropWhile (· == '.') := by
      rw [pointed, if_neg empty, trimFraction, if_pos (by simp), List.rdropWhile, List.rdropWhile,
        List.reverse_reverse]
    rw [trimmed, rdropWhile_append_cons (by decide)]
    change (whole ++ '.' :: dropZeros fraction).rdropWhile _ = _
    by_cases zeros : dropZeros fraction = []
    · rw [zeros, List.rdropWhile_concat_pos _ _ _ rfl, rdropWhile_digits digits,
        show pointed [] = [] from rfl, List.append_nil]
    · rw [pointed, if_neg zeros, List.rdropWhile_eq_self_iff]
      intro some
      have last : '.' :: dropZeros fraction ≠ [] := List.cons_ne_nil _ _
      rw [List.getLast_append_of_ne_nil some last, List.getLast_cons zeros]
      exact not_point (isDigit_of_mem_dropZeros digits' (List.getLast_mem zeros))

theorem ofDigitChars_paddedDigits (width n : ℕ) :
    Nat.ofDigitChars 10 (paddedDigits width n) 0 = n := by
  rw [paddedDigits, Nat.ofDigitChars_append, Nat.ofDigitChars_replicate_zero, Nat.mul_zero,
    Nat.ofDigitChars_ten_toDigits]

theorem length_toDigits {n p : ℕ} (some : 0 < p) (low : 10 ^ (p - 1) ≤ n) (high : n < 10 ^ p) :
    (Nat.toDigits 10 n).length = p := by
  have most := (Nat.length_toDigits_le_iff (by decide) some).mpr high
  rcases Nat.eq_or_lt_of_le (Nat.succ_le_of_lt some) with rfl | more
  · exact Nat.le_antisymm most Nat.length_toDigits_pos
  · have least := (Nat.length_toDigits_le_iff (b := 10) (by decide) (Nat.sub_pos_of_lt more)).not.mpr
      (Nat.not_lt.mpr low)
    omega

/-- No number but zero is written with a leading zero. -/
theorem head?_toDigits {n : ℕ} (positive : 0 < n) : (Nat.toDigits 10 n).head? ≠ some '0' := by
  induction n using Nat.strongRecOn with
  | ind n ih =>
    rcases Nat.lt_or_ge n 10 with small | large
    · have each : ∀ n < 10, 0 < n → (Nat.toDigits 10 n).head? ≠ some '0' := by decide
      exact each n small positive
    · rw [Nat.toDigits_of_base_le (by decide) large, List.head?_append_of_ne_nil _ Nat.toDigits_ne_nil]
      exact ih (n / 10) (by omega) (by omega)

/-- A zero leads the digits before the point only as the single one. -/
theorem single_of_zero {n places : ℕ} (positive : 0 < n) :
    let digits := paddedDigits (places + 1) n
    (digits.take (digits.length - places)).head? = some '0' →
      (digits.take (digits.length - places)).length = 1 := by
  intro digits zero
  have long : places < digits.length := lt_length_paddedDigits _ _
  by_cases bare : places + 1 ≤ (Nat.toDigits 10 n).length
  · have plain : digits = Nat.toDigits 10 n := by
      simp only [digits, paddedDigits, Nat.sub_eq_zero_of_le bare, List.replicate_zero, List.nil_append]
    rw [List.head?_take, if_neg (by omega), plain] at zero
    exact absurd zero (head?_toDigits positive)
  · have length : digits.length = places + 1 := by
      simp only [digits, paddedDigits, List.length_append, List.length_replicate]
      omega
    rw [List.length_take]
    omega

namespace Numeral

/-- Digits with a point behind the first `k` of them, and the zeros at their end left out. -/
def cut (negative : Bool) (digits : List Char) (k : ℕ) (power : Option Power) : Numeral where
  negative
  whole := digits.take k
  fraction := dropZeros (digits.drop k)
  power

variable {negative : Bool} {digits : List Char} {k : ℕ} {power : Option Power}

theorem cut_formed (each : ∀ c ∈ digits, c.isDigit = true) (begun : 0 < k)
    (within : k ≤ digits.length)
    (formed : ∀ p ∈ power, p.digits ≠ [] ∧ ∀ c ∈ p.digits, c.isDigit = true) :
    (cut negative digits k power).Formed where
  begun := by
    intro empty
    have length := congrArg List.length empty
    rw [cut, List.length_take, List.length_nil] at length
    omega
  whole c member := each c (List.mem_of_mem_take member)
  fraction _ member :=
    isDigit_of_mem_dropZeros (fun c behind => each c (List.mem_of_mem_drop behind)) member
  power := formed

theorem cut_text (each : ∀ c ∈ digits, c.isDigit = true) : (cut negative digits k power).text =
    sign negative ++ (trimFraction (digits.take k ++ pointed (digits.drop k)) ++
      power.elim [] Power.text) := by
  rw [trimFraction_pointed (fun c member => each c (List.mem_of_mem_take member))
    (fun c member => each c (List.mem_of_mem_drop member)), List.append_assoc]
  rfl

/-- Leaving out zeros changes nothing of the number. -/
theorem cut_mantissa : (cut negative digits k power).mantissa =
    Nat.ofDigitChars 10 digits 0 / 10 ^ (digits.length - k) := by
  obtain ⟨zeros, split⟩ := dropZeros_append_replicate (digits.drop k)
  have all : Nat.ofDigitChars 10 digits 0 =
      10 ^ zeros * Nat.ofDigitChars 10 (digits.take k ++ dropZeros (digits.drop k)) 0 := by
    rw [← Nat.ofDigitChars_replicate_zero, ← Nat.ofDigitChars_append, List.append_assoc, ← split,
      List.take_append_drop]
  have length : digits.length - k = (dropZeros (digits.drop k)).length + zeros := by
    rw [← List.length_drop, ← List.length_replicate (n := zeros) (a := '0'), ← List.length_append,
      ← split]
  rw [all, length, mantissa, cut]
  push_cast
  rw [pow_add]
  field_simp

end Numeral

theorem fixedText_eq (d : Dyadic) (places : ℕ) :
    let digits := paddedDigits (places + 1) (scaled d places)
    fixedText d places = digits.take (digits.length - places) ++
      pointed (digits.drop (digits.length - places)) := by
  simp only [fixedText, pointed, List.isEmpty_iff]
  split
  · rw [List.append_nil]
  · rfl

theorem mantissaText_eq (s : Significant) : mantissaText s =
    (Nat.toDigits 10 s.digits).take 1 ++ pointed ((Nat.toDigits 10 s.digits).drop 1) := by
  rw [mantissaText]
  rcases Nat.toDigits 10 s.digits with _ | ⟨c, _ | ⟨c', cs⟩⟩
  · rfl
  · rfl
  · rfl

def exponentPower (e : ℤ) : Power := ⟨e < 0, paddedDigits 2 e.natAbs⟩

theorem exponentPower_value (e : ℤ) : (exponentPower e).value = e := by
  rw [Power.value, exponentPower, ofDigitChars_paddedDigits]
  split
  · rename_i down
    have down := of_decide_eq_true down
    omega
  · rename_i up
    have up := of_decide_eq_false (Bool.not_eq_true _ ▸ up)
    omega

theorem exponentPower_text (e : ℤ) : (exponentPower e).text = exponentText .table e := by
  simp [Power.text, exponentPower, exponentText, GeneralFormat.table]

def signRat (negative : Bool) : ℚ := if negative then -1 else 1

/-- `v` in general style with `p` leading digits. -/
structure Numeral.IsGeneral (n : Numeral) (p : ℕ) (v : ℚ) : Prop where
  formed : n.Formed
  rounded : ∀ D, Rounds p v D ↔ D = n.value
  style : n.power.isSome ↔ Int.log 10 |n.value| < -4 ∨ p ≤ Int.log 10 |n.value|
  single : n.power.isSome → n.whole.length = 1
  wide : ∀ q ∈ n.power, 2 ≤ q.digits.length
  bare : n.fraction.getLast? ≠ some '0'
  plain : n.whole.head? = some '0' → n.whole.length = 1 ∧ n.power = none

section

variable {d : Dyadic} {p : ℕ} {negative : Bool} {n : Numeral}

theorem rounded_of_value (nonzero : d.mantissa ≠ 0) (some : 0 < p)
    (value : n.value = signRat negative * (significant d p).value p) :
    (∀ D, Rounds p (signRat negative * d.value) D ↔ D = n.value) ∧
      Int.log 10 |n.value| = (significant d p).exponent := by
  have rounds := significant_rounds nonzero some
  have positive : 0 < (significant d p).value p := by
    have digits := (significant_digits nonzero some).1
    have least : 0 < (significant d p).digits := (Nat.pow_pos (by decide)).trans_le digits
    exact mul_pos (by exact_mod_cast least) (ten_zpow_pos _)
  have signed : Rounds p (signRat negative * d.value) n.value := by
    rw [value]
    cases negative with
    | false => simpa [signRat] using rounds
    | true => simpa [signRat] using rounds.neg
  refine ⟨fun D => ⟨fun other => other.unique signed, fun same => same ▸ signed⟩, ?_⟩
  have size : |n.value| = (significant d p).value p := by
    rw [value, abs_mul, abs_of_pos positive]
    cases negative with
    | false => simp [signRat]
    | true => simp [signRat]
  rw [size, significant_exponent nonzero some]

theorem scientific_value (nonzero : d.mantissa ≠ 0) (some : 0 < p) :
    (Numeral.cut negative (Nat.toDigits 10 (significant d p).digits) 1
      (exponentPower (significant d p).exponent)).value =
      signRat negative * (significant d p).value p := by
  obtain ⟨low, high⟩ := significant_digits nonzero some
  rw [Numeral.value, Numeral.cut_mantissa, Nat.ofDigitChars_ten_toDigits,
    length_toDigits some low high, Significant.value]
  change signRat negative * _ * 10 ^ (exponentPower (significant d p).exponent).value = _
  have unit : ((significant d p).exponent : ℤ) + 1 - p =
      (significant d p).exponent - (p - 1 : ℕ) := by omega
  rw [exponentPower_value, unit, zpow_sub₀ (by norm_num), zpow_natCast]
  ring

theorem scientific_general (nonzero : d.mantissa ≠ 0) (some : 0 < p)
    (far : (significant d p).exponent < -4 ∨ p ≤ (significant d p).exponent) :
    (Numeral.cut negative (Nat.toDigits 10 (significant d p).digits) 1
      (exponentPower (significant d p).exponent)).IsGeneral p (signRat negative * d.value) := by
  obtain ⟨low, high⟩ := significant_digits nonzero some
  have positive : 0 < (significant d p).digits := (Nat.pow_pos (by decide)).trans_le low
  have leading := head?_toDigits positive
  obtain ⟨c, cs, digits⟩ :=
    List.exists_cons_of_ne_nil (Nat.toDigits_ne_nil (n := (significant d p).digits) (b := 10))
  obtain ⟨rounded, exponent⟩ := rounded_of_value nonzero some (scientific_value nonzero some)
  have wide := lt_length_paddedDigits 1 (significant d p).exponent.natAbs
  exact {
    formed := by
      refine Numeral.cut_formed (fun c => isDigit_of_mem_toDigits) Nat.one_pos (by simp [digits]) ?_
      rintro q ⟨⟩
      exact ⟨List.ne_nil_of_length_pos (Nat.zero_lt_of_lt wide), fun c => isDigit_of_mem_paddedDigits⟩
    rounded
    style := by
      rw [exponent]
      exact iff_of_true rfl far
    single := fun _ => by simp [Numeral.cut, digits]
    wide := by
      rintro q ⟨⟩
      exact wide
    bare := getLast?_dropZeros _
    plain := by
      intro zero
      rw [Numeral.cut, digits] at zero
      rw [digits] at leading
      exact absurd zero leading }

/-- Where the point is in the digits of a positional text. -/
theorem positional_value (nonzero : d.mantissa ≠ 0) (some : 0 < p)
    (near : (significant d p).exponent < p) :
    let places := (p - 1 - (significant d p).exponent).toNat
    let digits := paddedDigits (places + 1) (scaled d places)
    (Numeral.cut negative digits (digits.length - places) none).value =
      signRat negative * (significant d p).value p := by
  intro places digits
  have long : places < digits.length := lt_length_paddedDigits _ _
  have behind : digits.length - (digits.length - places) = places := by omega
  have places_eq : (places : ℤ) = p - 1 - (significant d p).exponent := Int.toNat_of_nonneg (by omega)
  rw [Numeral.value, Numeral.cut_mantissa, behind, ofDigitChars_paddedDigits, places_eq,
    scaled_significant nonzero some, Significant.value]
  change signRat negative * _ * 10 ^ (0 : ℤ) = _
  have unit : ((significant d p).exponent : ℤ) + 1 - p = -places := by omega
  rw [unit, zpow_zero, zpow_neg, zpow_natCast]
  ring

theorem positional_general (nonzero : d.mantissa ≠ 0) (some : 0 < p)
    (far : ¬(significant d p).exponent < -4) (near : (significant d p).exponent < p) :
    let places := (p - 1 - (significant d p).exponent).toNat
    let digits := paddedDigits (places + 1) (scaled d places)
    (Numeral.cut negative digits (digits.length - places) none).IsGeneral p
      (signRat negative * d.value) := by
  intro places digits
  have long : places < digits.length := lt_length_paddedDigits _ _
  obtain ⟨rounded, exponent⟩ := rounded_of_value nonzero some (positional_value nonzero some near)
  exact {
    formed := Numeral.cut_formed (fun c => isDigit_of_mem_paddedDigits) (by omega) (by omega) nofun
    rounded
    style := by
      rw [exponent]
      exact iff_of_false nofun (by omega)
    single := nofun
    wide := nofun
    bare := getLast?_dropZeros _
    plain := by
      have positive : 0 < scaled d places := by
        have low := (significant_digits nonzero some).1
        rw [show (places : ℤ) = p - 1 - (significant d p).exponent from
          Int.toNat_of_nonneg (by omega), scaled_significant nonzero some]
        exact (Nat.pow_pos (by decide)).trans_le low
      exact fun zero => ⟨single_of_zero positive zero, rfl⟩ }

/-- Each magnitude is written in one of the two styles. -/
theorem magnitudeText_general (negative : Bool) (nonzero : d.mantissa ≠ 0) (some : 0 < p) :
    ∃ n : Numeral, n.IsGeneral p (signRat negative * d.value) ∧
      n.text = sign negative ++ magnitudeText .table d p := by
  simp only [magnitudeText]
  split
  · rename_i far
    refine ⟨_, scientific_general nonzero some far, ?_⟩
    rw [Numeral.cut_text fun c => isDigit_of_mem_toDigits, mantissaText_eq, ← exponentPower_text]
    rfl
  · rename_i near
    rw [not_or, not_le] at near
    refine ⟨_, positional_general nonzero some near.1 near.2, ?_⟩
    rw [Numeral.cut_text fun c => isDigit_of_mem_paddedDigits, fixedText_eq]
    exact congrArg _ (List.append_nil _)

end

def Reading.value? : Reading → Option ℚ
  | .nan => none
  | .infinite _ => none
  | .finite negative d => some (signRat negative * d.value)

theorem Reading.value?_eq_some {r : Reading} {v : ℚ} :
    r.value? = some v ↔ ∃ negative d, r = .finite negative d ∧ signRat negative * d.value = v := by
  cases r with
  | nan => simp [value?]
  | infinite negative => simp [value?]
  | finite negative d => simp [value?]

theorem general_of_finite {x : Float} {negative : Bool} {d : Dyadic}
    (finite : read x = .finite negative d)
    (nonzero : d.mantissa ≠ 0) (precision : ℕ) : (general x precision).toList =
      sign negative ++ magnitudeText .table d (max precision 1) := by
  rw [general, String.toList_ofList, finite, readingText.eq_def]
  exact congrArg _ (if_neg nonzero)

/-- The text is that of one numeral and of no other: the value in general style. The opposite of a
positive value has a minus sign in front of the same text. -/
theorem general_denotes {x : Float} {v : ℚ} (exact : (read x).value? = some v) (nonzero : v ≠ 0)
    (precision : ℕ) :
    (∃ n : Numeral, n.IsGeneral (max precision 1) v ∧
        ∀ m : Numeral, m.Formed → (m.text = (general x precision).toList ↔ m = n)) ∧
      (0 < v → general (-x) precision = "-" ++ general x precision) := by
  obtain ⟨negative, d, finite, rfl⟩ := Reading.value?_eq_some.mp exact
  have some : d.mantissa ≠ 0 := by
    rintro zero
    exact nonzero (by rw [Dyadic.value, zero, Nat.cast_zero, zero_mul, mul_zero])
  have written := general_of_finite finite some precision
  constructor
  · obtain ⟨n, isGeneral, text⟩ :=
      magnitudeText_general negative some (p := max precision 1) (by omega)
    refine ⟨n, isGeneral, fun m formed => ?_⟩
    rw [written, ← text]
    exact ⟨Numeral.text_injective formed isGeneral.formed, fun same => same ▸ rfl⟩
  · intro positive
    cases negative with
    | false =>
      have opposite := general_of_finite (read_neg finite) some precision
      rw [String.ext_iff, String.toList_append, written, opposite]
      rfl
    | true =>
      have size := Dyadic.value_pos some
      rw [signRat, if_pos rfl] at positive
      linarith

/-- Rounding may carry into a new power of ten, which a second rounding has to agree with. -/
theorem general_denotes_carried :
    (∃ n : Numeral, n.IsGeneral 2 (319 / 32) ∧ ∀ m : Numeral, m.Formed →
        (m.text = (general (.ofBits 0x4023F00000000000) 2).toList ↔ m = n)) ∧
      general (-.ofBits 0x4023F00000000000) 2 = "-" ++ general (.ofBits 0x4023F00000000000) 2 := by
  have finite : read (.ofBits 0x4023F00000000000) = .finite false ⟨5611907348168704, -49⟩ := by
    decide +kernel
  have exact : (read (.ofBits 0x4023F00000000000)).value? = some (319 / 32) := by
    rw [finite]
    norm_num [Reading.value?, signRat, Dyadic.value]
  obtain ⟨denotes, opposite⟩ := general_denotes exact (by norm_num) 2
  exact ⟨denotes, opposite (by norm_num)⟩

end MolecularTools.Decimal
