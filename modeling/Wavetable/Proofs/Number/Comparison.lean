import Mathlib
import Wavetable.Number.Double

/-!
How doubles compare: no double lies below itself, and the infinities lie beyond all finite ones.
-/

namespace Wavetable.Number

open Float.Model (UnpackedFloat)

/-- A double that is no number and one that is not finite are told apart by its unpacked form. -/
theorem infinite_of_not_finite {x : Float} (number : x.isNaN = false)
    (unbounded : x.isFinite = false)
    : ∃ sign, x.toModel.unpack = .infinity sign := by
  change x.toModel.unpack.isNaN = false at number
  change x.toModel.unpack.isFinite = false at unbounded
  cases unpacked : x.toModel.unpack with
  | infinity sign => exact ⟨sign, rfl⟩
  | notANumber => simp [unpacked, UnpackedFloat.isNaN] at number
  | zero sign => simp [unpacked, UnpackedFloat.isFinite] at unbounded
  | finite sign mantissa exponent => simp [unpacked, UnpackedFloat.isFinite] at unbounded

theorem lt_iff {x y : Float}
    : x < y ↔ x.toModel.unpack.compare y.toModel.unpack = some .lt := by
  change decide (x.toModel < y.toModel) = true ↔ _
  rw [decide_eq_true_iff]
  change (x.toModel.unpack.compare y.toModel.unpack == some .lt) = true ↔ _
  exact beq_iff_eq

theorem lt_irrefl (x : Float) : ¬ x < x := by
  rw [lt_iff]
  cases x.toModel.unpack with
  | infinity sign => cases sign <;> decide
  | notANumber => decide
  | zero sign => simp [UnpackedFloat.compare]
  | finite sign mantissa exponent => cases sign <;> simp [UnpackedFloat.compare]

section
variable {x y : Float}

/-- Positive infinity lies above a finite double and not below it. -/
theorem infinity_above (unbounded : x.toModel.unpack = .infinity .positive)
    (finite : y.isFinite = true)
    : y < x ∧ ¬ x < y := by
  change y.toModel.unpack.isFinite = true at finite
  rw [lt_iff, lt_iff, unbounded]
  cases unpacked : y.toModel.unpack with
  | infinity sign => simp [unpacked, UnpackedFloat.isFinite] at finite
  | notANumber => simp [unpacked, UnpackedFloat.isFinite] at finite
  | zero sign => simp [UnpackedFloat.compare]
  | finite sign mantissa exponent => cases sign <;> simp [UnpackedFloat.compare]

/-- Negative infinity lies below a finite double and not above it. -/
theorem infinity_below (unbounded : x.toModel.unpack = .infinity .negative)
    (finite : y.isFinite = true)
    : x < y ∧ ¬ y < x := by
  change y.toModel.unpack.isFinite = true at finite
  rw [lt_iff, lt_iff, unbounded]
  cases unpacked : y.toModel.unpack with
  | infinity sign => simp [unpacked, UnpackedFloat.isFinite] at finite
  | notANumber => simp [unpacked, UnpackedFloat.isFinite] at finite
  | zero sign => simp [UnpackedFloat.compare]
  | finite sign mantissa exponent => cases sign <;> simp [UnpackedFloat.compare]

theorem isNaN_of_isFinite (finite : x.isFinite = true) : x.isNaN = false := by
  change x.toModel.unpack.isFinite = true at finite
  change x.toModel.unpack.isNaN = false
  cases unpacked : x.toModel.unpack <;>
    simp_all [UnpackedFloat.isFinite, UnpackedFloat.isNaN]

end

end Wavetable.Number
