import Mathlib
import MolecularTools.Decimal.Binary64

/-! The fields of a binary64 value: how large a magnitude can be, and how the opposite value is
read. -/
namespace MolecularTools.Decimal

open Float.Model (Format UnpackedFloat)

variable {x : Float} {negative : Bool} {d : Dyadic}

/-- A bit pattern of a finite value, told by its fields. -/
theorem readBits_eq_finite {n : Nat} : readBits n = .finite negative d ↔
    negative = decide (n / 2 ^ 63 % 2 = 1) ∧ n / 2 ^ 52 % 2 ^ 11 ≠ 2047 ∧
      d = if n / 2 ^ 52 % 2 ^ 11 = 0 then ⟨n % 2 ^ 52, -1074⟩
        else ⟨2 ^ 52 + n % 2 ^ 52, (n / 2 ^ 52 % 2 ^ 11 : Nat) - 1075⟩ := by
  simp only [readBits, Nat.pow_eq]
  by_cases top : n / 2 ^ 52 % 2 ^ 11 = 2047
  · rw [if_pos top]
    refine iff_of_false ?_ fun both => both.2.1 top
    split
    · nofun
    · nofun
  · rw [if_neg top]
    split
    · simp only [Reading.finite.injEq, top, ne_eq, not_false_iff, true_and]
      exact and_congr eq_comm eq_comm
    · simp only [Reading.finite.injEq, top, ne_eq, not_false_iff, true_and, Int.ofNat_eq_natCast]
      exact and_congr eq_comm eq_comm

/-- No magnitude has more than 53 bits, and no exponent is outside of the format. -/
theorem bounds_of_read (finite : read x = .finite negative d) :
    d.mantissa < 2 ^ 53 ∧ -1074 ≤ d.exponent ∧ d.exponent ≤ 971 := by
  obtain ⟨-, top, rfl⟩ := readBits_eq_finite.mp finite
  split
  · dsimp only
    omega
  · dsimp only
    omega

section

variable (b : BitVec Format.binary64.numBits)

theorem toNat_packComponents (s : UnpackedFloat.Sign) (e : BitVec 11) (m : BitVec 52) :
    (UnpackedFloat.packComponents .binary64 s e m).toNat =
      s.toBitVec.toNat * 2 ^ 63 + e.toNat * 2 ^ 52 + m.toNat := by
  rw [UnpackedFloat.packComponents, BitVec.toNat_append, ← Nat.shiftLeft_add_eq_or_of_lt m.isLt,
    BitVec.toNat_append, ← Nat.shiftLeft_add_eq_or_of_lt e.isLt, Nat.shiftLeft_eq, Nat.shiftLeft_eq]
  omega

theorem toNat_unpackMantissa : (UnpackedFloat.unpackMantissa b).toNat = b.toNat % 2 ^ 52 := by
  simp [UnpackedFloat.unpackMantissa, BitVec.extractLsb_toNat]

theorem toNat_unpackExponent :
    (UnpackedFloat.unpackExponent b).toNat = b.toNat / 2 ^ 52 % 2 ^ 11 := by
  simp [UnpackedFloat.unpackExponent, BitVec.extractLsb_toNat, Nat.shiftRight_eq_div_pow]

theorem toNat_unpackSign : (UnpackedFloat.unpackSign b).toNat = b.toNat / 2 ^ 63 % 2 := by
  simp [UnpackedFloat.unpackSign, BitVec.extractLsb_toNat, Nat.shiftRight_eq_div_pow]

end

/-- Packing the opposite of a finite value changes the sign alone. -/
theorem pack_neg {b : BitVec Format.binary64.numBits}
    (finite : UnpackedFloat.unpackExponent b ≠ -1#_) :
    UnpackedFloat.pack .binary64 (UnpackedFloat.unpack .binary64 b).neg =
      UnpackedFloat.packComponents .binary64 (-.ofBitVec (UnpackedFloat.unpackSign b))
        (UnpackedFloat.unpackExponent b) (UnpackedFloat.unpackMantissa b) := by
  generalize same : UnpackedFloat.packComponents .binary64 _ _ _ = c
  have exponent : UnpackedFloat.unpackExponent c = UnpackedFloat.unpackExponent b := by
    rw [← same, UnpackedFloat.unpackExponent_packComponents]
  have opposite : (UnpackedFloat.unpack .binary64 b).neg = UnpackedFloat.unpack .binary64 c := by
    have mantissa : UnpackedFloat.unpackMantissa c = UnpackedFloat.unpackMantissa b := by
      rw [← same, UnpackedFloat.unpackMantissa_packComponents]
    have sign : UnpackedFloat.Sign.ofBitVec (UnpackedFloat.unpackSign c) =
        -.ofBitVec (UnpackedFloat.unpackSign b) := by
      rw [← same, UnpackedFloat.unpackSign_packComponents, UnpackedFloat.Sign.ofBitVec_toBitVec]
    simp only [UnpackedFloat.unpack, exponent, mantissa, sign, if_neg finite]
    split_ifs
    · rfl
    · rfl
    · rfl
  have number : UnpackedFloat.isNaNBits c = false :=
    decide_eq_false fun nan => finite (exponent ▸ nan.1)
  rw [opposite, UnpackedFloat.pack_unpack, number, if_neg Bool.false_ne_true]

theorem toNat_toBits_neg (finite : x.toBits.toNat / 2 ^ 52 % 2 ^ 11 ≠ 2047)
    (positive : x.toBits.toNat / 2 ^ 63 % 2 = 0) : (-x).toBits.toNat = 2 ^ 63 + x.toBits.toNat := by
  have below := x.toBits.toNat_lt
  have packed := congrArg BitVec.toNat (pack_neg (b := x.toBits.toBitVec) fun top => ?_)
  · have sign : @UnpackedFloat.unpackSign .binary64 x.toBits.toBitVec = 0#1 := by
      apply BitVec.eq_of_toNat_eq
      rw [toNat_unpackSign]
      exact positive
    rw [toNat_packComponents, toNat_unpackMantissa, toNat_unpackExponent, sign] at packed
    change (-x).toBits.toNat = 1 * 2 ^ 63 + x.toBits.toNat / 2 ^ 52 % 2 ^ 11 * 2 ^ 52 +
      x.toBits.toNat % 2 ^ 52 at packed
    omega
  · have top := congrArg BitVec.toNat top
    rw [toNat_unpackExponent] at top
    exact finite top

/-- The opposite of a positive value is read as the same magnitude with a minus sign. -/
theorem read_neg (positive : read x = .finite false d) : read (-x) = .finite true d := by
  obtain ⟨sign, finite, size⟩ := readBits_eq_finite.mp positive
  have sign : x.toBits.toNat / 2 ^ 63 % 2 = 0 := by
    have zero := of_decide_eq_false sign.symm
    omega
  have below := x.toBits.toNat_lt
  have exponent : (2 ^ 63 + x.toBits.toNat) / 2 ^ 52 % 2 ^ 11 = x.toBits.toNat / 2 ^ 52 % 2 ^ 11 := by
    omega
  have fraction : (2 ^ 63 + x.toBits.toNat) % 2 ^ 52 = x.toBits.toNat % 2 ^ 52 := by omega
  rw [read, toNat_toBits_neg finite sign, readBits_eq_finite, exponent, fraction]
  refine ⟨(decide_eq_true ?_).symm, finite, size⟩
  omega

end MolecularTools.Decimal
