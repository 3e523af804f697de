import MolecularTools.Proofs.Binary64.Order

/-! Packing binary64 values. Fields that are as the format has them come back from the bits, so what
is packed stands for the number that it was packed from. -/
namespace MolecularTools.Binary64

open Float.Model (Format UnpackedFloat)
open Float.Model.UnpackedFloat (Sign)

theorem log2_eq_52_iff {m : ℕ} (positive : 0 < m) (bits : m < 2 ^ 53) : m.log2 = 52 ↔ 2 ^ 52 ≤ m := by
  rw [Nat.log2_eq_iff positive.ne']
  exact ⟨And.left, fun h => ⟨h, bits⟩⟩

section

variable (s : Sign) {exponent : BitVec 11} {fraction : BitVec 52}

/-- A biased exponent strictly between the two that are set apart comes with an implicit bit. -/
theorem unpack_normal (low : exponent ≠ 0#11) (high : exponent ≠ -1#11) :
    UnpackedFloat.unpack .binary64 (UnpackedFloat.packComponents .binary64 s exponent fraction) =
      .finite s (2 ^ 52 + fraction.toNat) (exponent.toNat - 1075) (by omega) := by
  have implicit := toNat_implicit fraction
  simp only [UnpackedFloat.unpack, UnpackedFloat.unpackExponent_packComponents,
    UnpackedFloat.unpackMantissa_packComponents, UnpackedFloat.unpackSign_packComponents,
    Sign.ofBitVec_toBitVec]
  rw [if_neg high, if_neg low]
  congr 1

theorem unpack_subnormal (nonzero : 0 < fraction.toNat) :
    UnpackedFloat.unpack .binary64 (UnpackedFloat.packComponents .binary64 s 0#11 fraction) =
      .finite s fraction.toNat (-1074) nonzero := by
  have some : fraction ≠ 0#52 := by
    rintro rfl
    contradiction
  simp only [UnpackedFloat.unpack, UnpackedFloat.unpackExponent_packComponents,
    UnpackedFloat.unpackMantissa_packComponents, UnpackedFloat.unpackSign_packComponents,
    Sign.ofBitVec_toBitVec]
  rw [if_neg (by decide), if_pos trivial, dif_neg some]
  rfl

end

theorem pack_standard {s : Sign} {m : ℕ} {e : ℤ} (standard : Standard m e) (positive : 0 < m) :
    UnpackedFloat.pack .binary64 (.finite s m e positive) =
      UnpackedFloat.packComponents .binary64 s
        (if 2 ^ 52 ≤ m then BitVec.ofNat 11 (e + 1075).toNat else 0#11) (BitVec.ofNat 52 m) := by
  obtain ⟨bits, least, most, -⟩ := standard
  have bias : e + Format.binary64.exponentBias + Format.binary64.mantissaBitsWithoutImplicit =
      e + 1075 := add_assoc _ _ _
  have bounded : ¬2 ^ Format.binary64.exponentBits ≤ (e + 1075).toNat + 1 := by
    change ¬2 ^ 11 ≤ _
    omega
  have leading : m.log2 + 1 = Format.binary64.mantissaBits ↔ 2 ^ 52 ≤ m := by
    change m.log2 + 1 = 53 ↔ _
    rw [← log2_eq_52_iff positive bits]
    omega
  rw [UnpackedFloat.pack.eq_4, bias, if_neg bounded, if_congr leading rfl rfl]
  split
  · rfl
  · rfl

/-- Standard fields come back from the bits they are packed into. -/
theorem unpack_pack {s : Sign} {m : ℕ} {e : ℤ} (standard : Standard m e) (positive : 0 < m) :
    (Float.Model.pack (.finite s m e positive)).unpack = .finite s m e positive := by
  have packed := pack_standard (s := s) standard positive
  obtain ⟨bits, least, most, leading⟩ := standard
  change UnpackedFloat.unpack .binary64 (UnpackedFloat.pack .binary64 _) = _
  rw [packed]
  have fraction : (BitVec.ofNat 52 m).toNat = m % 2 ^ 52 := BitVec.toNat_ofNat _ _
  have exponent : (BitVec.ofNat 11 (e + 1075).toNat).toNat = (e + 1075).toNat % 2 ^ 11 :=
    BitVec.toNat_ofNat _ _
  split
  · rename_i full
    rw [unpack_normal]
    · congr 1
      · omega
      · omega
    · intro zero
      rw [zero] at exponent
      change 0 = _ at exponent
      omega
    · intro top
      rw [top] at exponent
      change 2047 = _ at exponent
      omega
  · rename_i short
    obtain rfl := leading.resolve_left short
    rw [unpack_subnormal s (by omega)]
    congr 1
    omega

/-- The value is the number `v`. -/
inductive Number : UnpackedFloat → ℚ → Prop where
  | zero (s : Sign) : Number (.zero s) 0
  | finite (s : Sign) {m : ℕ} {e : ℤ} (standard : Standard m e) (positive : 0 < m) :
      Number (.finite s m e positive) (signed s (m * 2 ^ e))

theorem Number.extended {x : UnpackedFloat} {v : ℚ} (number : Number x v) :
    extended x = some (.ofRat v) := by
  cases number with
  | zero s => rfl
  | finite s standard positive => rfl

def Packs (r : UnpackedFloat) (v : ℚ) : Prop := Number (Float.Model.pack r).unpack v

theorem packs_zero (s : Sign) : Packs (.zero s) 0 := by
  cases s with
  | negative => exact .zero .negative
  | positive => exact .zero .positive

theorem packs_finite {s : Sign} {m : ℕ} {e : ℤ} (standard : Standard m e) (positive : 0 < m) :
    Packs (.finite s m e positive) (signed s (m * 2 ^ e)) := by
  rw [Packs, unpack_pack standard]
  exact .finite s standard positive

end MolecularTools.Binary64
