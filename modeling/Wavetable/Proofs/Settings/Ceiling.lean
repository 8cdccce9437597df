import Wavetable.Proofs.Number.Next
import Wavetable.Proofs.Settings.Exact

/-!
The least double that is not below a number of a settings file. A finite double lies below it
exactly if it lies below the number, so nothing is lost where the number is no double. It is
positive exactly if the number is.
-/

namespace Wavetable.Settings.Numeric

open Float.Model (UnpackedFloat)
open Number

theorem toFloat_truth_finite (value : Bool) : (Numeric.truth value).toFloat.isFinite = true := by
  cases value <;> decide +kernel

section
variable {n : Numeric} {exact : Exact}

/-- A number that is given as a whole number or as a finite double. -/
theorem exactValue?_cases (finite : n.toFloat.isFinite = true) (found : n.exactValue? = some exact)
    : (∃ whole : Int, n.whole? = some whole ∧ exact.value = whole)
      ∨ ∃ x, n = .real x ∧ x.isFinite = true ∧ exact.value = Number.value x := by
  cases given : n.whole? with
  | some whole =>
      obtain ⟨exact', found', same⟩ := exactValue?_whole given
      obtain rfl : exact' = exact := Option.some.inj (found'.symm.trans found)
      exact .inl ⟨whole, rfl, same⟩
  | none =>
      cases n with
      | real x =>
          obtain ⟨exact', found', same⟩ := exactValue?_real finite
          obtain rfl : exact' = exact := Option.some.inj (found'.symm.trans found)
          exact .inr ⟨x, rfl, finite, same⟩
      | truth | whole => contradiction

theorem isNegative_of_whole {whole : Int} (given : n.whole? = some whole)
    : n.isNegative = decide (whole < 0) := by
  cases n with
  | truth value =>
      obtain rfl : (if value then 1 else 0) = whole := Option.some.inj given
      cases value <;> rfl
  | whole value =>
      obtain rfl : value = whole := Option.some.inj given
      rfl
  | real => contradiction

theorem isAtMostZero_of_whole {whole : Int} (given : n.whole? = some whole)
    : n.isAtMostZero = decide (whole ≤ 0) := by
  cases n with
  | truth value =>
      obtain rfl : (if value then 1 else 0) = whole := Option.some.inj given
      cases value <;> rfl
  | whole value =>
      obtain rfl : value = whole := Option.some.inj given
      rfl
  | real => contradiction

theorem isNegative_iff (finite : n.toFloat.isFinite = true) (found : n.exactValue? = some exact)
    : n.isNegative = true ↔ exact.value < 0 := by
  obtain ⟨whole, given, same⟩ | ⟨x, rfl, finite, same⟩ := exactValue?_cases finite found
  · rw [isNegative_of_whole given, decide_eq_true_iff, same, Int.cast_lt_zero]
  · change decide (x < 0.0) = true ↔ _
    rw [decide_eq_true_iff, lt_iff_value (isNaN_of_isFinite finite) isNaN_zero, value_zero, same]

theorem isAtMostZero_iff (finite : n.toFloat.isFinite = true)
    (found : n.exactValue? = some exact)
    : n.isAtMostZero = true ↔ exact.value ≤ 0 := by
  obtain ⟨whole, given, same⟩ | ⟨x, rfl, finite, same⟩ := exactValue?_cases finite found
  · rw [isAtMostZero_of_whole given, decide_eq_true_iff, same, Int.cast_nonpos]
  · change decide (x ≤ 0.0) = true ↔ _
    rw [decide_eq_true_iff, le_iff_value (isNaN_of_isFinite finite) isNaN_zero, value_zero, same]

/-- A number that is not below zero is converted to a double that is not below zero. -/
theorem toFloat_nonneg (finite : n.toFloat.isFinite = true) (found : n.exactValue? = some exact)
    (nonneg : 0 ≤ exact.value)
    : 0 ≤ Number.value n.toFloat := by
  obtain ⟨exact', found', rounds⟩ := exists_exactValue? finite
  obtain rfl : exact' = exact := Option.some.inj (found'.symm.trans found)
  have finite' : (0.0 : Float).isFinite = true := by decide +kernel
  have zero := roundsSigned_value finite'
  rw [value_zero] at zero
  exact zero.mono monotone_id rfl rounds nonneg

/-- The finite doubles below the ceiling are those below the number. -/
theorem lt_ceiling_iff (finite : n.toFloat.isFinite = true) (found : n.exactValue? = some exact)
    (nonneg : 0 ≤ exact.value) {y : Float} (finite' : y.isFinite = true)
    : y < n.ceiling ↔ Number.value y < exact.value := by
  have notBelow := toFloat_nonneg finite found nonneg
  obtain ⟨exact', found', rounds⟩ := exists_exactValue? finite
  obtain rfl : exact' = exact := Option.some.inj (found'.symm.trans found)
  obtain ⟨nearest, foundNearest, same⟩ := exactValue?_real finite
  have number := isNaN_of_isFinite finite
  have number' := isNaN_of_isFinite finite'
  have kept := roundsSigned_value finite'
  unfold ceiling
  simp only [foundNearest, found]
  split
  next below =>
    rw [Exact.below_iff, same] at below
    have follows := follows_nextAbove finite notBelow
    rw [lt_iff_value number' follows.number]
    constructor
    · intro less
      have notAbove : ¬ Number.value n.toFloat < Number.value y :=
        fun above => less.not_ge (follows.least y number' above)
      exact (not_lt.mp notAbove).trans_lt below
    · intro less
      exact (kept.mono monotone_id rfl rounds less.le).trans_lt follows.above
  next notBelow' =>
    rw [Exact.below_iff, same, not_lt] at notBelow'
    rw [lt_iff_value number' number]
    constructor
    · intro less
      by_contra above
      exact less.not_ge (rounds.mono monotone_id rfl kept (not_lt.mp above))
    · exact fun less => less.trans_le notBelow'

theorem isNaN_ceiling_of_finite (finite : n.toFloat.isFinite = true)
    (found : n.exactValue? = some exact) (nonneg : 0 ≤ exact.value)
    : n.ceiling.isNaN = false := by
  have follows := follows_nextAbove finite (toFloat_nonneg finite found nonneg)
  unfold ceiling
  obtain ⟨nearest, foundNearest, -⟩ := exactValue?_real finite
  simp only [foundNearest, found]
  split
  · exact follows.number
  · exact isNaN_of_isFinite finite

/-- Beyond the finite doubles the ceiling is the double that the number is converted to. -/
theorem ceiling_of_unbounded (unbounded : n.toFloat.isFinite = false)
    : n.ceiling = n.toFloat := by
  unfold ceiling
  simp only [exactValue?_unbounded unbounded]

/-- Of the numbers that are not below zero, those beyond the finite doubles are converted to
positive infinity.
-/
theorem unpack_of_unbounded (unbounded : n.toFloat.isFinite = false)
    (number : n.toFloat.isNaN = false) (notNegative : n.isNegative = false)
    : n.toFloat.toModel.unpack = .infinity .positive ∧ n.isAtMostZero = false := by
  have finite : (0.0 : Float).isFinite = true := by decide +kernel
  obtain ⟨sign, infinite⟩ := infinite_of_not_finite number unbounded
  cases n with
  | truth value => exact absurd (unbounded.symm.trans (toFloat_truth_finite value)) nofun
  | whole value =>
      simp only [isNegative, decide_eq_false_iff_not, not_lt] at notNegative
      obtain ⟨size, rfl⟩ := Int.eq_ofNat_of_zero_le notNegative
      have unsigned : IsUnsigned (Float.ofNat size).toModel.unpack :=
        ofNat_eq_ofScientific size ▸ isUnsigned_ofScientific size false 0
      change (Float.ofNat size).toModel.unpack = _ at infinite
      obtain rfl : sign = .positive := by rwa [infinite] at unsigned
      have some : size ≠ 0 := by
        rintro rfl
        exact absurd unbounded (by decide +kernel)
      refine ⟨infinite, ?_⟩
      simp only [isAtMostZero, decide_eq_false_iff_not]
      omega
  | real x =>
      simp only [isNegative, decide_eq_false_iff_not] at notNegative
      cases sign with
      | negative => exact absurd (infinity_below infinite finite).1 notNegative
      | positive =>
          have above := (infinity_above infinite finite).1
          refine ⟨infinite, ?_⟩
          simp only [isAtMostZero, decide_eq_false_iff_not]
          exact fun below => (le_iff_not_lt isNaN_zero number).mp below above

/-- NaN is not at most zero. -/
theorem isNaN_of_isAtMostZero (atMostZero : n.isAtMostZero = true) : n.toFloat.isNaN = false := by
  cases n with
  | truth value => exact isNaN_of_isFinite (toFloat_truth_finite value)
  | whole value =>
      cases value with
      | ofNat size => exact isNaN_float_ofNat size
      | negSucc size => exact isNaN_neg (isNaN_float_ofNat (size + 1))
  | real x =>
      by_contra missing
      rw [Bool.not_eq_false] at missing
      exact not_le_of_isNaN (.inl missing) (of_decide_eq_true atMostZero)

theorem exists_exact_nonneg (finite : n.toFloat.isFinite = true)
    (notNegative : n.isNegative = false)
    : ∃ exact, n.exactValue? = some exact ∧ 0 ≤ exact.value := by
  obtain ⟨exact, found, -⟩ := exists_exactValue? finite
  refine ⟨exact, found, not_lt.mp fun below => ?_⟩
  exact Bool.false_ne_true (notNegative.symm.trans ((isNegative_iff finite found).mpr below))

/-- The ceiling of a number is a number, and that of NaN is NaN. -/
theorem isNaN_ceiling (notNegative : n.isNegative = false)
    : n.ceiling.isNaN = n.toFloat.isNaN := by
  cases finite : n.toFloat.isFinite with
  | false => rw [ceiling_of_unbounded finite]
  | true =>
      obtain ⟨exact, found, nonneg⟩ := exists_exact_nonneg finite notNegative
      rw [isNaN_ceiling_of_finite finite found nonneg, isNaN_of_isFinite finite]

/-- A zero lies below the ceiling exactly if the number is positive. -/
theorem lt_ceiling_of_zero {zero : Float} (none : StandsFor zero 0)
    (notNegative : n.isNegative = false) (number : n.toFloat.isNaN = false)
    : zero < n.ceiling ↔ n.isAtMostZero = false := by
  cases finite : n.toFloat.isFinite with
  | false =>
      obtain ⟨infinite, positive⟩ := unpack_of_unbounded finite number notNegative
      rw [ceiling_of_unbounded finite]
      exact iff_of_true (infinity_above infinite none.finite).1 positive
  | true =>
      obtain ⟨exact, found, nonneg⟩ := exists_exact_nonneg finite notNegative
      rw [lt_ceiling_iff finite found nonneg none.finite, none.same, ← not_le,
        ← isAtMostZero_iff finite found, Bool.not_eq_true]

/-- A number that is neither below zero nor above it is zero. -/
theorem same_zero (notNegative : n.isNegative = false) (atMostZero : n.isAtMostZero = true)
    : n.same (.whole 0) = true := by
  have number := isNaN_of_isAtMostZero atMostZero
  cases finite : n.toFloat.isFinite with
  | false =>
      have positive := (unpack_of_unbounded finite number notNegative).2
      exact absurd (positive.symm.trans atMostZero) Bool.false_ne_true
  | true =>
      obtain ⟨exact, found, nonneg⟩ := exists_exact_nonneg finite notNegative
      obtain ⟨zero, found', same⟩ := exactValue?_whole (n := .whole 0) rfl
      have none := le_antisymm ((isAtMostZero_iff finite found).mp atMostZero) nonneg
      unfold Numeric.same
      rw [found, found']
      exact Exact.same_iff.mpr (by rw [none, same, Int.cast_zero])

end

end Wavetable.Settings.Numeric
