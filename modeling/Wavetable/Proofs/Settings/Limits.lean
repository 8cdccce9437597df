import Wavetable.Proofs.Settings.Ceiling
import Wavetable.Proofs.Settings.Layers

/-!
What the checks leave of settings. The bounds are finite and in order, the tolerance is not below
zero and the number of frames is above it. As the checks refuse what compares as too small, they let
NaN pass, and a number of frames need not be whole.
-/

namespace Wavetable.Settings

open Number

/-- Settings that were made of named values, or loaded. -/
inductive Obtained : Settings → Prop
  | made {values settings} (accepted : ofMembers values = .ok settings) : Obtained settings
  | loaded {file environment overrides settings}
      (accepted : load file environment overrides = .ok settings)
    : Obtained settings

/-- What is loaded is made of named values in the end. -/
theorem Obtained.exists_members {settings : Settings} (obtained : Obtained settings)
    : ∃ values, ofMembers values = .ok settings := by
  cases obtained with
  | made accepted => exact ⟨_, accepted⟩
  | loaded accepted =>
      obtain ⟨content, _, accepted⟩ := bind_eq_ok.mp accepted
      obtain ⟨layer, _, accepted⟩ := bind_eq_ok.mp accepted
      obtain ⟨given, _, accepted⟩ := bind_eq_ok.mp accepted
      split at accepted
      next => simp [bind_eq_ok, throw_ne_ok] at accepted
      next => exact ⟨_, accepted⟩

/-- A number that is not below zero, unless it is NaN. -/
def Numeric.IsNonnegative (n : Numeric) : Prop :=
  (∃ whole, n.whole? = some whole ∧ 0 ≤ whole)
  ∨ ∃ x, n = .real x ∧ (x.isNaN = true ∨ 0.0 ≤ x)

/-- A number above zero, unless it is NaN. -/
def Numeric.IsPositive (n : Numeric) : Prop :=
  (∃ whole, n.whole? = some whole ∧ 0 < whole)
  ∨ ∃ x, n = .real x ∧ (x.isNaN = true ∨ 0.0 < x)

/-- What settings keep to. The bounds are in order as exact numbers and as doubles. -/
structure WithinLimits (settings : Settings) : Prop where
  finiteLow : settings.clampLow.toFloat.isFinite = true
  finiteHigh : settings.clampHigh.toFloat.isFinite = true
  ordered : ∃ low high,
    settings.clampLow.exactValue? = some low
    ∧ settings.clampHigh.exactValue? = some high
    ∧ low.value ≤ high.value
  converted : settings.clampLow.toFloat ≤ settings.clampHigh.toFloat
  tolerance : settings.tolerance.IsNonnegative
  frameCount : settings.frameCount.IsPositive

section
variable {n : Numeric}

theorem Numeric.whole_or_real (n : Numeric)
    : (∃ whole, n.whole? = some whole) ∨ ∃ x, n = .real x := by
  cases n with
  | truth | whole => exact .inl ⟨_, rfl⟩
  | real x => exact .inr ⟨x, rfl⟩

theorem Numeric.isNonnegative_of_not_negative (passed : n.isNegative = false)
    : n.IsNonnegative := by
  obtain ⟨whole, given⟩ | ⟨x, rfl⟩ := n.whole_or_real
  · rw [isNegative_of_whole given, decide_eq_false_iff_not, not_lt] at passed
    exact .inl ⟨whole, given, passed⟩
  · have notBelow : ¬ x < 0.0 := of_decide_eq_false passed
    cases missing : x.isNaN with
    | true => exact .inr ⟨x, rfl, .inl missing⟩
    | false => exact .inr ⟨x, rfl, .inr ((le_iff_not_lt missing isNaN_zero).mpr notBelow)⟩

theorem Numeric.isPositive_of_not_atMostZero (passed : n.isAtMostZero = false)
    : n.IsPositive := by
  obtain ⟨whole, given⟩ | ⟨x, rfl⟩ := n.whole_or_real
  · rw [isAtMostZero_of_whole given, decide_eq_false_iff_not, not_le] at passed
    exact .inl ⟨whole, given, passed⟩
  · have notAtMost : ¬ x ≤ 0.0 := of_decide_eq_false passed
    cases missing : x.isNaN with
    | true => exact .inr ⟨x, rfl, .inl missing⟩
    | false =>
        rw [le_iff_not_lt isNaN_zero missing, not_not] at notAtMost
        exact .inr ⟨x, rfl, .inr notAtMost⟩

end

/-- Every check leaves its part of the limits. -/
theorem Obtained.withinLimits {settings : Settings} (obtained : Obtained settings)
    : settings.WithinLimits := by
  obtain ⟨values, made⟩ := obtained.exists_members
  have accepted := ofMembers_accepted made
  obtain ⟨low, foundLow, -⟩ := Numeric.exists_exactValue? accepted.finiteLow
  obtain ⟨high, foundHigh, -⟩ := Numeric.exists_exactValue? accepted.finiteHigh
  have ordered := accepted.ordered
  rw [Numeric.above, foundLow, foundHigh] at ordered
  constructor
  case finiteLow => exact accepted.finiteLow
  case finiteHigh => exact accepted.finiteHigh
  case ordered =>
    refine ⟨low, high, foundLow, foundHigh, not_lt.mp fun less => ?_⟩
    exact Bool.false_ne_true (ordered.symm.trans (Numeric.Exact.below_iff.mpr less))
  case converted => exact accepted.low_le_high
  case tolerance => exact Numeric.isNonnegative_of_not_negative accepted.notNegative
  case frameCount => exact Numeric.isPositive_of_not_atMostZero accepted.someFrames

end Wavetable.Settings
