import Wavetable.Proofs.Attempt
import Wavetable.Settings.Basic

/-!
What holds of settings that were accepted: every value was read and passed its check.
-/

namespace Wavetable.Settings

/-- The settings are those of the named values, and all checks passed. -/
structure Accepted (values : Json.Members) (settings : Settings) : Prop where
  known : ∀ member ∈ values, member.1 ∈ names
  seed : seedOf ((Json.Members.get? values "rand_seed").getD (.integer default.randomSeed))
    = .ok settings.randomSeed
  low : numericOf values "clamp_min" default.clampLow = .ok settings.clampLow
  lowBound : checkBound settings.clampLow = .ok ()
  high : numericOf values "clamp_max" default.clampHigh = .ok settings.clampHigh
  highBound : checkBound settings.clampHigh = .ok ()
  ordered : settings.clampLow.above settings.clampHigh = false
  tolerance : numericOf values "eq_tolerance" default.tolerance = .ok settings.tolerance
  notNegative : settings.tolerance.isNegative = false
  frameCount : numericOf values "default_frame_count" default.frameCount = .ok settings.frameCount
  someFrames : settings.frameCount.isAtMostZero = false

/-- A refused condition ends an attempt, so where the attempt succeeds the condition failed. -/
theorem guard_eq_ok {ε α : Type} {condition : Bool} {error : ε} {rest : Except ε α} {result : α}
    : (if condition = true then throw error >>= fun _ : PUnit => rest else rest) = .ok result
      ↔ condition = false ∧ rest = .ok result := by
  cases condition <;> simp [bind_eq_ok, throw_ne_ok]

/-- Settings are made only where all checks pass, step by step through the checks. -/
theorem ofMembers_accepted {values : Json.Members} {settings : Settings}
    (accepted : ofMembers values = .ok settings)
    : Accepted values settings := by
  unfold ofMembers at accepted
  split at accepted
  · simp [bind_eq_ok, throw_ne_ok] at accepted
  next known =>
    simp only [bind_eq_ok, guard_eq_ok, pure_eq_ok] at accepted
    obtain ⟨seed, seeded, low, lower, _, lowBound, high, upper, _, highBound, ordered, tolerance,
      tolerated, notNegative, frames, framed, someFrames, rfl⟩ := accepted
    refine ⟨?_, seeded, lower, lowBound, upper, highBound, ordered, tolerated, notNegative, framed,
      someFrames⟩
    intro member named
    simpa using List.find?_eq_none.mp known member named

/-- A bound that passes its check is finite. -/
theorem isFinite_of_checkBound {bound : Numeric} (passed : checkBound bound = .ok ())
    : bound.toFloat.isFinite = true := by
  unfold checkBound at passed
  split at passed
  next finite => exact finite
  next => split at passed <;> contradiction

theorem Accepted.finiteLow {values : Json.Members} {settings : Settings}
    (accepted : Accepted values settings)
    : settings.clampLow.toFloat.isFinite = true :=
  isFinite_of_checkBound accepted.lowBound

theorem Accepted.finiteHigh {values : Json.Members} {settings : Settings}
    (accepted : Accepted values settings)
    : settings.clampHigh.toFloat.isFinite = true :=
  isFinite_of_checkBound accepted.highBound

/-- An upper bound alone is accepted where it is finite and not below the usual lower bound. -/
theorem ofMembers_clampHigh {bound : Numeric} (finite : bound.toFloat.isFinite = true)
    (ordered : default.clampLow.above bound = false)
    : ofMembers [("clamp_max", bound.toJson)] = .ok { default with clampHigh := bound } := by
  have read
      : numericOf [("clamp_max", bound.toJson)] "clamp_max" default.clampHigh = .ok bound := by
    cases bound <;> rfl
  have passed : checkBound bound = .ok () := if_pos finite
  have steps : ofMembers [("clamp_max", bound.toJson)]
      = (numericOf [("clamp_max", bound.toJson)] "clamp_max" default.clampHigh).bind fun high =>
          (checkBound high).bind fun _ =>
            if default.clampLow.above high then throw .boundsReversed
            else .ok { default with clampHigh := high } :=
    rfl
  rw [steps, read]
  simp only [Except.bind, passed, ordered]
  rfl

/-- A tolerance alone is accepted where it is not negative. -/
theorem ofMembers_tolerance (tolerance : Numeric) (notNegative : tolerance.isNegative = false)
    : ofMembers [("eq_tolerance", tolerance.toJson)] = .ok { default with tolerance } := by
  have read
      : numericOf [("eq_tolerance", tolerance.toJson)] "eq_tolerance" default.tolerance
        = .ok tolerance := by
    cases tolerance <;> rfl
  have steps : ofMembers [("eq_tolerance", tolerance.toJson)]
      = (numericOf [("eq_tolerance", tolerance.toJson)] "eq_tolerance" default.tolerance).bind
          fun tolerance =>
            if tolerance.isNegative then throw .negativeTolerance
            else .ok { default with tolerance } :=
    rfl
  rw [steps, read]
  simp only [Except.bind, notNegative]
  rfl

end Wavetable.Settings
