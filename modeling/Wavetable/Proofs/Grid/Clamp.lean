import Wavetable.Grid.Clamp
import Wavetable.Proofs.Number.Comparison

/-!
Between finite bounds, the infinities need no rule of their own: limiting them gives the bound on
their side.
-/

namespace Wavetable.Grid

open Number

/-- A bound that is limited by itself and the other one stays, or gives way to the upper one. -/
theorem limit_low (low high : Float) : limit low high low = if low > high then high else low := by
  simp [limit, lt_irrefl]

theorem limit_high (low high : Float) : limit low high high = high := by
  unfold limit
  split
  next below => simp [below]
  next => simp [lt_irrefl]

/-- Between finite bounds, the sample of a number is the number limited to them, and that of NaN is
zero limited to them.
-/
theorem clamp_eq_limit {low high : Float} (finiteLow : low.isFinite = true)
    (finiteHigh : high.isFinite = true) (x : Float)
    : clamp low high x = limit low high (if x.isNaN then 0.0 else x) := by
  have bounds : (low.isNaN || high.isNaN) = false := by
    rw [isNaN_of_isFinite finiteLow, isNaN_of_isFinite finiteHigh]
    rfl
  have zero : (0.0 : Float).isFinite = true := by decide
  simp only [clamp, bounds, Bool.false_eq_true, if_false, settle]
  cases number : x.isNaN with
  | true => simp
  | false =>
      cases finite : x.isFinite with
      | true => simp
      | false =>
          simp only [Bool.false_eq_true, if_false]
          obtain ⟨sign, unpacked⟩ := infinite_of_not_finite number finite
          cases sign with
          | positive =>
              have positive : x > 0.0 := (infinity_above unpacked zero).1
              have above := infinity_above unpacked finiteHigh
              have notBelow := (infinity_above unpacked finiteLow).2
              rw [if_pos positive, limit_high]
              simp [limit, notBelow, above.1]
          | negative =>
              have negative : ¬ x > 0.0 := (infinity_below unpacked zero).2
              have below := (infinity_below unpacked finiteLow).1
              rw [if_neg negative, limit_low]
              simp [limit, below]

end Wavetable.Grid
