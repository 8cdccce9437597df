import Wavetable.Proofs.Number.Overflow
import Wavetable.Proofs.Number.Sums
import Wavetable.Proofs.Number.Unsigned

/-!
Distances of doubles. Two doubles have a distance unless one of them is NaN or both are the same
infinity. Of two numbers one lies below the other or not, while NaN fails every comparison.
-/

namespace Wavetable.Number

open Float.Model (Format UnpackedFloat)
open Float.Model.UnpackedFloat

-----------------------------------------------------------------------------------------
-- Comparisons
-----------------------------------------------------------------------------------------

section
variable {x y : Float} {f g : UnpackedFloat}

theorem compare_of_isNaN (missing : f.isNaN = true ∨ g.isNaN = true) : f.compare g = none := by
  rcases missing with missing | missing
  · cases f with
    | notANumber => rfl
    | infinity | zero | finite => contradiction
  · cases g with
    | notANumber => cases f <;> rfl
    | infinity | zero | finite => contradiction

/-- NaN lies neither below nor above a double. -/
theorem not_lt_of_isNaN (missing : x.isNaN = true ∨ y.isNaN = true) : ¬ x < y := by
  rw [lt_iff, compare_of_isNaN missing]
  exact nofun

theorem not_le_of_isNaN (missing : x.isNaN = true ∨ y.isNaN = true) : ¬ x ≤ y := by
  change ¬ decide (x.toModel ≤ y.toModel) = true
  rw [decide_eq_true_iff]
  change ¬ ((x.toModel.unpack.compare y.toModel.unpack).any (·.isLE)) = true
  rw [compare_of_isNaN missing]
  exact Bool.false_ne_true

theorem value_zero : value 0.0 = 0 :=
  value_eq unpack_zero

theorem isNaN_zero : (0.0 : Float).isNaN = false :=
  congrArg UnpackedFloat.isNaN unpack_zero

theorem le_iff_not_lt (number : x.isNaN = false) (number' : y.isNaN = false)
    : y ≤ x ↔ ¬ x < y := by
  rw [le_iff_value number' number, lt_iff_value number number', not_lt]

end

-----------------------------------------------------------------------------------------
-- Differences
-----------------------------------------------------------------------------------------

/-- Both are numbers, and they are not one and the same infinity. -/
structure HasDistance (x y : Float) : Prop where
  left : x.isNaN = false
  right : y.isNaN = false
  notInfinite : x = y → x.isInf = false

theorem isNaN_normalize (units : Int) (exponent : Int)
    : (normalize Format.binary64 units exponent .positive).isNaN = false := by
  unfold UnpackedFloat.normalize
  split
  · exact isNaN_roundWithAccuracy _ _ _ _
  · rfl
  · exact isNaN_roundWithAccuracy _ _ _ _

/-- A difference is NaN where an operand is, and where both operands are the same infinity. -/
theorem isNaN_sub_forms (f g : UnpackedFloat)
    : (sub Format.binary64 f g).isNaN = false
      ↔ f.isNaN = false ∧ g.isNaN = false ∧ (f = g → f.isInf = false) := by
  cases f with
  | notANumber => simp [UnpackedFloat.sub, UnpackedFloat.isNaN]
  | infinity sign =>
      cases g with
      | infinity sign' =>
          cases sign <;> cases sign'
          · exact iff_of_false nofun fun notInfinite => nomatch notInfinite.2.2 rfl
          · exact iff_of_true rfl ⟨rfl, rfl, nofun⟩
          · exact iff_of_true rfl ⟨rfl, rfl, nofun⟩
          · exact iff_of_false nofun fun notInfinite => nomatch notInfinite.2.2 rfl
      | notANumber | zero | finite =>
          simp [UnpackedFloat.sub, UnpackedFloat.isNaN, UnpackedFloat.isInf]
  | zero sign =>
      cases g with
      | zero sign' =>
          cases sign <;> cases sign' <;> exact iff_of_true rfl ⟨rfl, rfl, fun _ => rfl⟩
      | notANumber | infinity | finite =>
          simp [UnpackedFloat.sub, UnpackedFloat.isNaN, UnpackedFloat.isInf]
  | finite sign mantissa exponent positive =>
      cases g with
      | finite sign' mantissa' exponent' positive' =>
          exact iff_of_true (isNaN_normalize _ _) ⟨rfl, rfl, fun _ => rfl⟩
      | notANumber | infinity | zero =>
          simp [UnpackedFloat.sub, UnpackedFloat.isNaN, UnpackedFloat.isInf]

theorem isNaN_unpack_pack_iff (f : UnpackedFloat)
    : (Float.Model.pack f).unpack.isNaN = f.isNaN := by
  cases missing : f.isNaN with
  | false => exact isNaN_unpack_pack missing
  | true =>
      cases f with
      | notANumber => decide +kernel
      | infinity | zero | finite => contradiction

section
variable {x y : Float}

theorem isNaN_sub_iff : (x - y).isNaN = false ↔ HasDistance x y := by
  change (Float.Model.pack _).unpack.isNaN = false ↔ _
  rw [isNaN_unpack_pack_iff, isNaN_sub_forms]
  constructor
  · rintro ⟨left, right, notInfinite⟩
    exact ⟨left, right, fun same => notInfinite (congrArg (·.toModel.unpack) same)⟩
  · rintro ⟨left, right, notInfinite⟩
    exact ⟨left, right, fun same => notInfinite (eq_of_unpack same)⟩

theorem isNaN_abs (x : Float) : x.abs.isNaN = x.isNaN := by
  change (Float.Model.pack x.toModel.unpack.abs).unpack.isNaN = x.toModel.unpack.isNaN
  rw [isNaN_unpack_pack_iff]
  cases x.toModel.unpack <;> rfl

/-- The distance of two doubles is a number if they have one. -/
theorem isNaN_distance_iff : (x - y).abs.isNaN = false ↔ HasDistance x y := by
  rw [isNaN_abs, isNaN_sub_iff]

theorem isInf_of_isFinite (finite : x.isFinite = true) : x.isInf = false := by
  change x.toModel.unpack.isFinite = true at finite
  change x.toModel.unpack.isInf = false
  cases unpacked : x.toModel.unpack with
  | infinity sign | notANumber =>
      rw [unpacked] at finite
      contradiction
  | zero | finite => rfl

theorem hasDistance_self (finite : x.isFinite = true) : HasDistance x x :=
  ⟨isNaN_of_isFinite finite, isNaN_of_isFinite finite, fun _ => isInf_of_isFinite finite⟩

/-- A finite double is at distance zero from itself. -/
theorem standsFor_distance_self (finite : x.isFinite = true) : StandsFor (x - x).abs 0 := by
  have none : IsDouble (value x - value x) := by
    rw [sub_self]
    exact (IsForm.zero .positive).isDouble
  have difference := StandsFor.sub ⟨finite, rfl⟩ ⟨finite, rfl⟩ none
  rw [sub_self] at difference
  obtain ⟨sign, size, sized⟩ := exists_hasSize difference.finite
  have same : |signed sign size| = size := abs_signed sized.nonneg
  rw [← sized.standsFor.same, difference.same, abs_zero] at same
  exact same ▸ sized.abs.standsFor

end

end Wavetable.Number
