import Mathlib.Algebra.Order.Field.Power
import Mathlib.Data.Rat.Cast.Order
import Mathlib.Tactic.FieldSimp
import Mathlib.Tactic.Linarith
import Mathlib.Tactic.NormNum
import Mathlib.Tactic.Positivity
import Mathlib.Tactic.Ring
import Wavetable.Number.Shortest

/-!
What ratios stand for, and how their digits measure them.
-/

namespace Wavetable.Number

/-- The count of the decimal digits of a whole number tells the powers of ten around it. -/
theorem digitCount_bounds {n : Nat} (some : 0 < n)
    : (10 : ℚ) ^ ((digitCount n : Int) - 1) ≤ n ∧ (n : ℚ) < 10 ^ (digitCount n : Int) := by
  have counted : 0 < digitCount n := Nat.length_toDigits_pos
  have short : n < 10 ^ digitCount n := (Nat.length_toDigits_le_iff (by decide) counted).mp le_rfl
  obtain ⟨others, same⟩ : ∃ others, digitCount n = others + 1 := ⟨digitCount n - 1, by omega⟩
  rw [same] at short ⊢
  refine ⟨?_, by exact_mod_cast short⟩
  rw [Nat.cast_succ, add_sub_cancel_right, zpow_natCast]
  rcases Nat.eq_zero_or_pos others with rfl | several
  · rw [pow_zero]
    exact_mod_cast some
  · have long : ¬ digitCount n ≤ others := by omega
    have tall : ¬ n < 10 ^ others := fun small =>
      long ((Nat.length_toDigits_le_iff (by decide) several).mpr small)
    exact_mod_cast Nat.le_of_not_lt tall

namespace Ratio

/-- The number that a ratio stands for. -/
def value (r : Ratio) : ℚ :=
  r.num / r.den

theorem den_ofBinary_pos (mantissa : Nat) (exponent : Int)
    : 0 < (ofBinary mantissa exponent).den := by
  unfold ofBinary
  split <;> positivity

theorem value_ofBinary (mantissa : Nat) (exponent : Int)
    : (ofBinary mantissa exponent).value = mantissa * 2 ^ exponent := by
  unfold ofBinary value
  split
  next whole =>
    obtain ⟨shift, rfl⟩ := Int.eq_ofNat_of_zero_le whole
    simp
  next fraction =>
    obtain ⟨shift, rfl⟩ : ∃ shift : Nat, exponent = -(shift : Int) := ⟨exponent.natAbs, by omega⟩
    simp [div_eq_mul_inv]

variable {r : Ratio}

theorem den_inUnits_pos (proper : 0 < r.den) (exponent : Int) : 0 < (r.inUnits exponent).den := by
  unfold inUnits
  split
  · exact Nat.mul_pos proper (by positivity)
  · exact proper

theorem value_inUnits (r : Ratio) (exponent : Int)
    : (r.inUnits exponent).value = r.value / 10 ^ exponent := by
  unfold inUnits value
  split
  next whole =>
    obtain ⟨shift, rfl⟩ := Int.eq_ofNat_of_zero_le whole
    simp [div_div]
  next fraction =>
    obtain ⟨shift, rfl⟩ : ∃ shift : Nat, exponent = -(shift : Int) := ⟨exponent.natAbs, by omega⟩
    simp [div_eq_mul_inv, mul_right_comm]

/-- Ratios are compared with whole numbers crosswise. -/
theorem lt_mul_den_iff (proper : 0 < r.den) (n : Nat) : r.num < n * r.den ↔ r.value < n := by
  rw [value, div_lt_iff₀ (by exact_mod_cast proper)]
  norm_cast

theorem mul_den_lt_iff (proper : 0 < r.den) (n : Nat) : n * r.den < r.num ↔ n < r.value := by
  rw [value, lt_div_iff₀ (by exact_mod_cast proper)]
  norm_cast

/-- The magnitude is that of the value. -/
theorem magnitude_bounds (some : 0 < r.num) (proper : 0 < r.den)
    : (10 : ℚ) ^ (r.magnitude - 1) ≤ r.value ∧ r.value < 10 ^ r.magnitude := by
  obtain ⟨numLow, numHigh⟩ := digitCount_bounds some
  obtain ⟨denLow, denHigh⟩ := digitCount_bounds proper
  have proper' : (0 : ℚ) < r.den := by exact_mod_cast proper
  have low : (10 : ℚ) ^ ((digitCount r.num : Int) - digitCount r.den - 1) ≤ r.value := by
    rw [value, le_div_iff₀ proper']
    calc (10 : ℚ) ^ ((digitCount r.num : Int) - digitCount r.den - 1) * r.den
        ≤ 10 ^ ((digitCount r.num : Int) - digitCount r.den - 1) * 10 ^ (digitCount r.den : Int) :=
          mul_le_mul_of_nonneg_left denHigh.le (by positivity)
      _ = 10 ^ ((digitCount r.num : Int) - 1) := by
          rw [← zpow_add₀ (by norm_num)]
          congr 1
          ring
      _ ≤ r.num := numLow
  have high : r.value < 10 ^ ((digitCount r.num : Int) - digitCount r.den + 1) := by
    rw [value, div_lt_iff₀ proper']
    calc (r.num : ℚ) < 10 ^ (digitCount r.num : Int) := numHigh
      _ = 10 ^ ((digitCount r.num : Int) - digitCount r.den + 1)
          * 10 ^ ((digitCount r.den : Int) - 1) := by
          rw [← zpow_add₀ (by norm_num)]
          congr 1
          ring
      _ ≤ 10 ^ ((digitCount r.num : Int) - digitCount r.den + 1) * r.den :=
          mul_le_mul_of_nonneg_left denLow (by positivity)
  unfold magnitude
  dsimp only
  have compared := lt_mul_den_iff (den_inUnits_pos proper (digitCount r.num - digitCount r.den)) 1
  rw [one_mul, value_inUnits, Nat.cast_one, div_lt_one₀ (by positivity)] at compared
  split
  next below => exact ⟨low, compared.mp below⟩
  next above =>
    rw [compared, not_lt] at above
    rw [add_sub_cancel_right]
    exact ⟨above, high⟩

end Ratio

end Wavetable.Number
