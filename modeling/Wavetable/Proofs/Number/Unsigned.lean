import Wavetable.Number.Decimal
import Wavetable.Proofs.Number.Comparison
import Wavetable.Proofs.Number.Unpacked

/-!
Doubles without a minus. Rounding, products and quotients of such doubles have no minus, and no
decimal is read as a double with one.
-/

namespace Wavetable.Number

open Float.Model (UnpackedFloat Format)
open Float.Model.UnpackedFloat

/-- No minus stands before a number. -/
def IsUnsigned : UnpackedFloat → Prop
  | .infinity sign => sign = .positive
  | .notANumber => True
  | .zero sign => sign = .positive
  | .finite sign _ _ _ => sign = .positive

theorem IsUnsigned.pack {f : UnpackedFloat} (unsigned : IsUnsigned f)
    : unpackSign (pack Format.binary64 f) = Sign.positive.toBitVec := by
  fun_cases UnpackedFloat.pack Format.binary64 f with
  | case1 => exact unpackSign_packComponents
  | case2 | case3 | case4 | case5 | case6 =>
      obtain rfl := unsigned
      exact unpackSign_packComponents

/-- Packing keeps the sign. -/
theorem IsUnsigned.unpack_pack {f : UnpackedFloat} (unsigned : IsUnsigned f)
    : IsUnsigned (Float.Model.pack f).unpack := by
  change IsUnsigned (unpack Format.binary64 (UnpackedFloat.pack Format.binary64 f))
  simp only [unpack, unsigned.pack, ofBitVec_toBitVec]
  split
  · split <;> trivial
  split
  · split <;> trivial
  · trivial

theorem IsUnsigned.roundWithAccuracy (mantissa : Nat) (exponent : Int) (accuracy : Accuracy)
    : IsUnsigned (roundWithAccuracy Format.binary64 .positive mantissa exponent accuracy) := by
  unfold UnpackedFloat.roundWithAccuracy
  dsimp only
  split <;> trivial

theorem IsUnsigned.mul {f g : UnpackedFloat} (unsigned : IsUnsigned f) (unsigned' : IsUnsigned g)
    : IsUnsigned (mul Format.binary64 f g) := by
  cases f <;> cases g <;> first
    | trivial
    | obtain rfl := unsigned
      obtain rfl := unsigned'
      first | rfl | exact IsUnsigned.roundWithAccuracy _ _ _

theorem IsUnsigned.div {f g : UnpackedFloat} (unsigned : IsUnsigned f) (unsigned' : IsUnsigned g)
    : IsUnsigned (div Format.binary64 f g) := by
  cases f <;> cases g <;> first
    | trivial
    | obtain rfl := unsigned
      obtain rfl := unsigned'
      first | rfl | exact IsUnsigned.roundWithAccuracy _ _ _

theorem IsUnsigned.ofNat (n : Nat) : IsUnsigned (ofNat Format.binary64 n) := by
  unfold UnpackedFloat.ofNat UnpackedFloat.ofInt UnpackedFloat.normalize
  split
  next below =>
    have := Int.compare_eq_lt.mp below
    omega
  · rfl
  · exact IsUnsigned.roundWithAccuracy _ _ _

theorem isUnsigned_ofScientific (digits : Nat) (negative : Bool) (exponent : Nat)
    : IsUnsigned (Float.ofScientific digits negative exponent).toModel.unpack := by
  unfold Float.ofScientific
  split
  next small =>
    have whole : IsUnsigned digits.toUInt64.toFloat.toModel.unpack :=
      (IsUnsigned.ofNat _).unpack_pack
    have inside := lt_size_table small.2
    obtain ⟨_, _, _, unpacked, -⟩ := unpack_powerOfTen inside
    have power : IsUnsigned Float.exactlyRepresentablePowersOfTen[exponent].toModel.unpack :=
      unpacked ▸ rfl
    dsimp only
    split
    · exact (whole.div power).unpack_pack
    · exact (whole.mul power).unpack_pack
  next =>
    refine IsUnsigned.unpack_pack ?_
    generalize (if negative then Int.negOfNat exponent else Int.ofNat exponent) = power
    unfold UnpackedFloat.ofScientific
    split
    · rfl
    split
    · rfl
    split
    · rfl
    have positive : ∀ {mantissa exponent positive},
        IsUnsigned (.finite .positive mantissa exponent positive) := rfl
    split
    · exact positive.mul positive
    · exact positive.div positive

/-- No decimal is read as a double with a minus. -/
theorem isUnsigned_ofDecimal (whole fraction : List Char) (exponent : Int)
    : IsUnsigned (ofDecimal whole fraction exponent).toModel.unpack := by
  unfold ofDecimal nearestDouble
  dsimp only
  split
  · exact isUnsigned_ofScientific 0 true 1
  split
  · exact ((isUnsigned_ofScientific 10 true 1).div (isUnsigned_ofScientific 0 true 1)).unpack_pack
  split
  · exact isUnsigned_ofScientific _ true _
  · exact isUnsigned_ofScientific _ false _

theorem unpack_zero : (0.0 : Float).toModel.unpack = .zero .positive := by
  have zero : (0.0 : Float) = .ofModel (.pack (.zero .positive)) := by decide +kernel
  rw [zero]
  exact unpack_pack_zero .positive

theorem unpack_minus_zero : (-0.0 : Float).toModel.unpack = .zero .negative := by
  have zero : (-0.0 : Float) = .ofModel (.pack (.zero .negative)) := by decide +kernel
  rw [zero]
  exact unpack_pack_zero .negative

/-- A finite double has no minus if it is neither below zero nor minus zero. -/
theorem isUnsigned_iff {x : Float} (finite : x.isFinite = true)
    : IsUnsigned x.toModel.unpack ↔ ¬ x < 0.0 ∧ x ≠ -0.0 := by
  change x.toModel.unpack.isFinite = true at finite
  have zero : x = -0.0 ↔ x.toModel.unpack = .zero .negative := by
    constructor
    · rintro rfl
      exact unpack_minus_zero
    · intro unpacked
      exact eq_of_unpack (unpacked.trans unpack_minus_zero.symm)
  rw [lt_iff, Ne, zero, unpack_zero]
  cases unpacked : x.toModel.unpack with
  | infinity sign => simp [unpacked, UnpackedFloat.isFinite] at finite
  | notANumber => simp [unpacked, UnpackedFloat.isFinite] at finite
  | zero sign => cases sign <;> simp [IsUnsigned, UnpackedFloat.compare]
  | finite sign mantissa exponent => cases sign <;> simp [IsUnsigned, UnpackedFloat.compare]

end Wavetable.Number
