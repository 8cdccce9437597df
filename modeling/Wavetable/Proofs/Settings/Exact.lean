import Wavetable.Proofs.Number.Wholes
import Wavetable.Proofs.Settings.Accepted

/-!
Numbers of a settings file by their exact values. The double that such a number is converted to is
the nearest one, and so numbers in order are converted to doubles in order.
-/

namespace Wavetable.Settings.Numeric

open Number

/-- The exact number. -/
def Exact.value (exact : Exact) : ℚ :=
  exact.numerator / 2 ^ exact.scale

theorem Exact.below_iff {left right : Exact}
    : left.below right = true ↔ left.value < right.value := by
  unfold Exact.below Exact.value
  rw [decide_eq_true_iff, div_lt_div_iff₀ (by positivity) (by positivity)]
  exact_mod_cast Iff.rfl

theorem Exact.same_iff {left right : Exact}
    : left.same right = true ↔ left.value = right.value := by
  unfold Exact.same Exact.value
  rw [decide_eq_true_iff, div_eq_div_iff (by positivity) (by positivity)]
  exact_mod_cast Iff.rfl

/-- The exact number of a finite double is what it stands for. -/
theorem exactValue?_real {x : Float} (finite : x.isFinite = true)
    : ∃ exact, (Numeric.real x).exactValue? = some exact ∧ exact.value = Number.value x := by
  change x.toModel.unpack.isFinite = true at finite
  unfold exactValue? Number.value
  simp only [whole?, toFloat, Double.ofFloat]
  cases unpacked : x.toModel.unpack with
  | notANumber | infinity sign =>
      rw [unpacked] at finite
      contradiction
  | zero sign => exact ⟨_, rfl, by simp [Exact.value, unpackedValue]⟩
  | finite sign mantissa exponent positive =>
      refine ⟨_, rfl, ?_⟩
      have size : ((mantissa * 2 ^ exponent.toNat : Int) : ℚ) / 2 ^ (-exponent).toNat
          = mantissa * 2 ^ exponent := by
        obtain ⟨distance, rfl | rfl⟩ := exponent.eq_nat_or_neg
        · simp
        · simp [div_eq_mul_inv]
      cases sign <;> simp [Exact.value, unpackedValue, signed, ← size, neg_div]

theorem exactValue?_unbounded {x : Float} (unbounded : x.isFinite = false)
    : (Numeric.real x).exactValue? = none := by
  change x.toModel.unpack.isFinite = false at unbounded
  unfold exactValue?
  simp only [whole?, toFloat, Double.ofFloat]
  cases unpacked : x.toModel.unpack with
  | notANumber | infinity sign => rfl
  | zero sign | finite sign mantissa exponent positive =>
      rw [unpacked] at unbounded
      contradiction

theorem exactValue?_whole {n : Numeric} {whole : Int} (given : n.whole? = some whole)
    : ∃ exact, n.exactValue? = some exact ∧ exact.value = whole := by
  refine ⟨⟨whole, 0⟩, by simp [exactValue?, given], by simp [Exact.value]⟩

theorem toFloat_of_whole {n : Numeric} {whole : Int} (given : n.whole? = some whole)
    : n.toFloat = Float.ofInt whole := by
  cases n with
  | truth value =>
      obtain rfl : (if value then 1 else 0) = whole := by simpa [whole?] using given
      cases value <;> decide +kernel
  | whole value =>
      obtain rfl : value = whole := by simpa [whole?] using given
      rfl
  | real value => contradiction

/-- A number whose double is finite is rounded to it. -/
theorem exists_exactValue? {n : Numeric} (finite : n.toFloat.isFinite = true)
    : ∃ exact,
        n.exactValue? = some exact
        ∧ RoundsSigned 52 (-1074) id exact.value (Number.value n.toFloat) := by
  cases given : n.whole? with
  | some whole =>
      rw [toFloat_of_whole given] at finite ⊢
      obtain ⟨exact, found, same⟩ := exactValue?_whole given
      exact ⟨exact, found, same ▸ roundsSigned_ofInt finite⟩
  | none =>
      cases n with
      | real x =>
          obtain ⟨exact, found, same⟩ := exactValue?_real finite
          exact ⟨exact, found, same ▸ roundsSigned_value finite⟩
      | truth | whole => contradiction

/-- Numbers in order are converted to doubles in order. -/
theorem toFloat_le {low high : Numeric} (finite : low.toFloat.isFinite = true)
    (finite' : high.toFloat.isFinite = true) (ordered : low.above high = false)
    : low.toFloat ≤ high.toFloat := by
  obtain ⟨exact, found, rounds⟩ := exists_exactValue? finite
  obtain ⟨exact', found', rounds'⟩ := exists_exactValue? finite'
  have below : exact.value ≤ exact'.value := by
    rw [above, found, found'] at ordered
    exact not_lt.mp fun less => Bool.false_ne_true (ordered.symm.trans (Exact.below_iff.mpr less))
  rw [le_iff_value (isNaN_of_isFinite finite) (isNaN_of_isFinite finite')]
  exact rounds.mono monotone_id rfl rounds' below

end Wavetable.Settings.Numeric

namespace Wavetable.Settings

/-- Accepted bounds are converted to doubles in order. -/
theorem Accepted.low_le_high {values : Json.Members} {settings : Settings}
    (accepted : Accepted values settings)
    : settings.clampLow.toFloat ≤ settings.clampHigh.toFloat :=
  Numeric.toFloat_le accepted.finiteLow accepted.finiteHigh accepted.ordered

end Wavetable.Settings
