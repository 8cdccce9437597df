import Wavetable.Proofs.Number.Unsigned

/-!
Decimals beyond the doubles. A decimal is never read as NaN, so one that is not read as a finite
double is read as infinity.
-/

namespace Wavetable.Number

open Float.Model (UnpackedFloat Format)
open Float.Model.UnpackedFloat

/-- All bits of an exponent are set in the infinities and in NaN only. -/
theorem isNaN_unpack_packComponents (sign : Sign) {exponent : BitVec 11} (mantissa : BitVec 52)
    (notAll : exponent ≠ -1#11)
    : (unpack Format.binary64 (packComponents Format.binary64 sign exponent mantissa)).isNaN
      = false := by
  rw [unpack_packComponents, if_neg notAll]
  split
  · split <;> rfl
  · rfl

theorem isNaN_unpack_packedInfinity (sign : Sign)
    : (unpack Format.binary64 (packedInfinity Format.binary64 sign)).isNaN = false := by
  cases sign <;> decide +kernel

/-- Packing makes no number NaN: an exponent that is too large gives an infinity. -/
theorem isNaN_unpack_pack {f : UnpackedFloat} (number : f.isNaN = false)
    : (Float.Model.pack f).unpack.isNaN = false := by
  change (unpack Format.binary64 (UnpackedFloat.pack Format.binary64 f)).isNaN = false
  cases f with
  | notANumber => contradiction
  | infinity sign => exact isNaN_unpack_packedInfinity sign
  | zero sign => exact isNaN_unpack_packComponents sign 0#52 (by decide)
  | finite sign mantissa exponent positive =>
      simp only [UnpackedFloat.pack]
      split
      next => exact isNaN_unpack_packedInfinity sign
      next within =>
        split
        next =>
          refine isNaN_unpack_packComponents sign _ (ofNat_ne (by omega) ?_)
          change _ ≠ 2047
          change ¬ 2048 ≤ _ at within
          omega
        next => exact isNaN_unpack_packComponents sign _ (by decide)

theorem isNaN_roundWithAccuracy (sign : Sign) (mantissa : Nat) (exponent : Int)
    (accuracy : Accuracy)
    : (roundWithAccuracy Format.binary64 sign mantissa exponent accuracy).isNaN = false := by
  simp only [UnpackedFloat.roundWithAccuracy]
  split <;> rfl

section
variable {f : UnpackedFloat} {sign : Sign} {mantissa : Nat} {exponent : Int}
  {positive : 0 < mantissa}

/-- A number times a finite one that is not zero is a number or an infinity. -/
theorem isNaN_mul_finite (number : f.isNaN = false)
    : (mul Format.binary64 f (.finite sign mantissa exponent positive)).isNaN = false := by
  cases f with
  | notANumber => contradiction
  | infinity _ | zero _ => rfl
  | finite _ _ _ _ => exact isNaN_roundWithAccuracy _ _ _ _

theorem isNaN_div_finite (number : f.isNaN = false)
    : (div Format.binary64 f (.finite sign mantissa exponent positive)).isNaN = false := by
  cases f with
  | notANumber => contradiction
  | infinity _ | zero _ => rfl
  | finite _ _ _ _ => exact isNaN_roundWithAccuracy _ _ _ _

end

theorem isNaN_ofNat (n : Nat) : (ofNat Format.binary64 n).isNaN = false := by
  unfold UnpackedFloat.ofNat UnpackedFloat.ofInt UnpackedFloat.normalize
  split
  · exact isNaN_roundWithAccuracy _ _ _ _
  · rfl
  · exact isNaN_roundWithAccuracy _ _ _ _

theorem isNaN_ofScientific (digits : Nat) (negative : Bool) (exponent : Nat)
    : (Float.ofScientific digits negative exponent).toModel.unpack.isNaN = false := by
  unfold Float.ofScientific
  split
  next small =>
    have whole : digits.toUInt64.toFloat.toModel.unpack.isNaN = false :=
      isNaN_unpack_pack (isNaN_ofNat _)
    obtain ⟨_, _, _, unpacked, -⟩ := unpack_powerOfTen (lt_size_table small.2)
    dsimp only
    split
    · refine isNaN_unpack_pack ?_
      rw [unpacked]
      exact isNaN_div_finite whole
    · refine isNaN_unpack_pack ?_
      rw [unpacked]
      exact isNaN_mul_finite whole
  next =>
    refine isNaN_unpack_pack ?_
    generalize (if negative then Int.negOfNat exponent else Int.ofNat exponent) = power
    unfold UnpackedFloat.ofScientific
    split
    · rfl
    split
    · rfl
    split
    · rfl
    split
    · exact isNaN_mul_finite rfl
    · exact isNaN_div_finite rfl

/-- A decimal without a power of ten is read as a number or an infinity. -/
theorem isNaN_ofDecimal (whole fraction : List Char)
    : (ofDecimal whole fraction 0).toModel.unpack.isNaN = false := by
  unfold ofDecimal nearestDouble
  dsimp only
  split
  · exact isNaN_ofScientific 0 true 1
  split
  next far => omega
  split
  · exact isNaN_ofScientific _ true _
  · exact isNaN_ofScientific _ false _

theorem unpack_infinity : infinity.toModel.unpack = .infinity .positive := by
  have beyond : infinity = .ofModel (.pack (.infinity .positive)) := by decide +kernel
  rw [beyond]
  exact unpack_packComponents .positive (-1) 0

/-- A decimal that is not read as a finite double is read as infinity. -/
theorem ofDecimal_eq_infinity {whole fraction : List Char}
    (beyond : (ofDecimal whole fraction 0).isFinite = false)
    : ofDecimal whole fraction 0 = infinity := by
  obtain ⟨sign, unpacked⟩ := infinite_of_not_finite (isNaN_ofDecimal whole fraction) beyond
  have unsigned := isUnsigned_ofDecimal whole fraction 0
  rw [unpacked] at unsigned
  obtain rfl : sign = .positive := unsigned
  exact eq_of_unpack (unpacked.trans unpack_infinity.symm)

end Wavetable.Number
