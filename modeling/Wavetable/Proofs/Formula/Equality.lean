import Wavetable.Formula.Evaluation
import Wavetable.Proofs.Formula.Joining
import Wavetable.Proofs.Number.Difference
import Wavetable.Proofs.Settings.Ceiling

/-!
Equality up to a tolerance. Of two values that have a distance, `==` and `!=` say the opposite for
every tolerance that is a number, and a finite value is equal to itself for every positive one. A
distance or a tolerance that is NaN makes both say no, and by the tolerance zero every value differs
from itself.
-/

namespace Wavetable.Formula

open Number
open Settings (Numeric)

/-- What `==` and `!=` say of two formulas. -/
def Evaluator.verdicts (evaluator : Evaluator) (context : Context) (left right : Expr)
    : Except EvalError Float × Except EvalError Float :=
  (evaluator.value context (.binary .equal left right),
   evaluator.value context (.binary .notEqual left right))

section
variable {evaluator : Evaluator} {context : Context} {left right : Expr} {x y : Float}
  (first : evaluator.value context left = .ok x) (second : evaluator.value context right = .ok y)

include first second

theorem verdicts_of_values
    : evaluator.verdicts context left right
      = (.ok (ofTruth ((x - y).abs < evaluator.tolerance)),
         .ok (ofTruth ((x - y).abs ≥ evaluator.tolerance))) := by
  simp only [Evaluator.verdicts, Evaluator.value, first, second, BinaryOp.shortcut?,
    BinaryOp.apply]

/-- Of a distance and a tolerance that are numbers, one lies below the other or does not. -/
theorem verdicts_of_number (distant : HasDistance x y) (number : evaluator.tolerance.isNaN = false)
    : evaluator.verdicts context left right
      = if (x - y).abs < evaluator.tolerance then (.ok 1.0, .ok 0.0) else (.ok 0.0, .ok 1.0) := by
  have opposite := le_iff_not_lt (isNaN_distance_iff.mpr distant) number
  rw [verdicts_of_values first second]
  by_cases below : (x - y).abs < evaluator.tolerance
  · have notAbove : ¬ (x - y).abs ≥ evaluator.tolerance := fun above => opposite.mp above below
    rw [if_pos below, decide_eq_true below, decide_eq_false notAbove]
    rfl
  · rw [if_neg below, decide_eq_false below, decide_eq_true (opposite.mpr below)]
    rfl

/-- NaN neither lies below something nor does something lie at or below it. -/
theorem verdicts_of_isNaN (missing : ¬ (HasDistance x y ∧ evaluator.tolerance.isNaN = false))
    : evaluator.verdicts context left right = (.ok 0.0, .ok 0.0) := by
  have either : (x - y).abs.isNaN = true ∨ evaluator.tolerance.isNaN = true := by
    rw [not_and_or, ← isNaN_distance_iff, Bool.not_eq_false, Bool.not_eq_false] at missing
    exact missing
  rw [verdicts_of_values first second, decide_eq_false (not_lt_of_isNaN either),
    decide_eq_false (not_le_of_isNaN either.symm)]
  rfl

end

section
variable {values : Json.Members} {settings : Settings}
  (accepted : Settings.ofMembers values = .ok settings)
  {evaluator : Evaluator} (tolerant : evaluator.tolerance = settings.tolerance.ceiling)

include accepted tolerant

theorem isNaN_tolerance : evaluator.tolerance.isNaN = settings.tolerance.toFloat.isNaN := by
  rw [tolerant]
  exact Numeric.isNaN_ceiling (Settings.ofMembers_accepted accepted).notNegative

-----------------------------------------------------------------------------------------
-- Two values
-----------------------------------------------------------------------------------------

/-- For two formulas that have values, and with the tolerance of any accepted settings, exactly one
of `==` and `!=` is one and the other zero if the values have a distance and the tolerance is a
number. Otherwise both are zero: where a value is NaN, where both are the same infinity, and where
the tolerance is NaN. The two operations on formulas that are read from sources are read from these
sources in parentheses, unless they nest too deep.
-/
theorem equal_or_different {context : Context} {left right : Expr} {x y : Float}
    (first : evaluator.value context left = .ok x) (second : evaluator.value context right = .ok y)
    : (HasDistance x y ∧ settings.tolerance.toFloat.isNaN = false
        → evaluator.verdicts context left right = (.ok 1.0, .ok 0.0)
          ∨ evaluator.verdicts context left right = (.ok 0.0, .ok 1.0))
      ∧ (¬ (HasDistance x y ∧ settings.tolerance.toFloat.isNaN = false)
        → evaluator.verdicts context left right = (.ok 0.0, .ok 0.0))
      ∧ ∀ source source',
          parseSource source = .ok left
          → parseSource source' = .ok right
          → ∀ op,
              parseSource (joined op source source') = .ok (.binary op left right)
              ∨ TooDeep (parseSource (joined op source source')) := by
  rw [← isNaN_tolerance accepted tolerant]
  refine ⟨fun ⟨distant, number⟩ => ?_, verdicts_of_isNaN first second,
    fun source source' read read' op => parseSource_joined op read read'⟩
  rw [verdicts_of_number first second distant number]
  split
  · exact .inl rfl
  · exact .inr rfl

omit accepted tolerant in
/-- Infinity has a distance from every finite sample. -/
theorem equal_or_different_infinity
    : Settings.ofMembers [] = .ok .default
      ∧ HasDistance infinity 0.5
      ∧ (Evaluator.verdicts ⟨.default, Settings.default.tolerance.ceiling⟩
            { Context.zero with input := infinity, x := 0.5 } (.var "in") (.var "x")
          = (.ok 1.0, .ok 0.0)
        ∨ Evaluator.verdicts ⟨.default, Settings.default.tolerance.ceiling⟩
            { Context.zero with input := infinity, x := 0.5 } (.var "in") (.var "x")
          = (.ok 0.0, .ok 1.0)) := by
  have distant : HasDistance infinity 0.5 := by
    refine ⟨by decide +kernel, by decide +kernel, fun same => ?_⟩
    exact absurd same (by decide +kernel)
  have number : Settings.default.tolerance.toFloat.isNaN = false := by decide +kernel
  have accepted : Settings.ofMembers [] = .ok .default := rfl
  exact ⟨accepted, distant, (equal_or_different accepted rfl rfl rfl).1 ⟨distant, number⟩⟩

omit accepted tolerant in
/-- With the usual settings, an infinite sample is neither equal to itself nor different from
itself.
-/
theorem infinity_neither_equal_nor_different
    : parseSource (joined .equal "in" "in") = .ok (.binary .equal (.var "in") (.var "in"))
      ∧ parseSource (joined .notEqual "in" "in")
          = .ok (.binary .notEqual (.var "in") (.var "in"))
      ∧ Evaluator.verdicts ⟨.default, Settings.default.tolerance.ceiling⟩
          { Context.zero with input := infinity } (.var "in") (.var "in")
        = (.ok 0.0, .ok 0.0) := by
  have scanned : tokenize "(in) == (in)" = .ok
      [⟨.opening, "(", 0, "("⟩, ⟨.name, "in", 1, "in"⟩, ⟨.closing, ")", 3, ")"⟩,
       ⟨.operator, "==", 5, "=="⟩, ⟨.opening, "(", 8, "("⟩, ⟨.name, "in", 9, "in"⟩,
       ⟨.closing, ")", 11, ")"⟩] := by decide +kernel
  have scanned' : tokenize "(in) != (in)" = .ok
      [⟨.opening, "(", 0, "("⟩, ⟨.name, "in", 1, "in"⟩, ⟨.closing, ")", 3, ")"⟩,
       ⟨.operator, "!=", 5, "!="⟩, ⟨.opening, "(", 8, "("⟩, ⟨.name, "in", 9, "in"⟩,
       ⟨.closing, ")", 11, ")"⟩] := by decide +kernel
  exact ⟨parseSource_eq_ok_iff.mpr ⟨_, scanned, rfl⟩, parseSource_eq_ok_iff.mpr ⟨_, scanned', rfl⟩,
    by decide +kernel⟩

-----------------------------------------------------------------------------------------
-- A value and itself
-----------------------------------------------------------------------------------------

/-- A formula with a finite value, compared with itself by the tolerance of any accepted settings:
it is equal to itself and does not differ from itself if the tolerance is positive. By the tolerance
zero it differs from itself and is not equal, and by NaN it is neither. One of the three is the
case. The two operations on a formula that is read from a source are read from this source twice in
parentheses, unless it nests too deep.
-/
theorem equal_to_itself {context : Context} {e : Expr} {x : Float}
    (evaluated : evaluator.value context e = .ok x) (finite : x.isFinite = true)
    : (settings.tolerance.toFloat.isNaN = false ∧ settings.tolerance.isAtMostZero = false
        → evaluator.verdicts context e e = (.ok 1.0, .ok 0.0))
      ∧ (settings.tolerance.isAtMostZero = true
        → settings.tolerance.same (.whole 0) = true
          ∧ evaluator.verdicts context e e = (.ok 0.0, .ok 1.0))
      ∧ (settings.tolerance.toFloat.isNaN = true
        → evaluator.verdicts context e e = (.ok 0.0, .ok 0.0))
      ∧ ∀ source,
          parseSource source = .ok e
          → ∀ op,
              parseSource (joined op source source) = .ok (.binary op e e)
              ∨ TooDeep (parseSource (joined op source source)) := by
  have notNegative := (Settings.ofMembers_accepted accepted).notNegative
  have distant := hasDistance_self finite
  have sameNumber := isNaN_tolerance accepted tolerant
  have below : settings.tolerance.toFloat.isNaN = false
      → ((x - x).abs < evaluator.tolerance ↔ settings.tolerance.isAtMostZero = false) := by
    rw [tolerant]
    exact Numeric.lt_ceiling_of_zero (standsFor_distance_self finite) notNegative
  refine ⟨fun ⟨number, positive⟩ => ?_, fun zero => ⟨?_, ?_⟩, fun missing => ?_,
    fun source read op => parseSource_joined op read read⟩
  · rw [verdicts_of_number evaluated evaluated distant (sameNumber.trans number),
      if_pos ((below number).mpr positive)]
  · exact Numeric.same_zero notNegative zero
  · have number := Numeric.isNaN_of_isAtMostZero zero
    rw [verdicts_of_number evaluated evaluated distant (sameNumber.trans number), if_neg]
    rw [below number, zero]
    exact nofun
  · refine verdicts_of_isNaN evaluated evaluated fun ⟨_, number⟩ => ?_
    exact Bool.false_ne_true (number.symm.trans (sameNumber.trans missing))

end

/-- By the least positive tolerance a formula is still equal to itself. -/
theorem equal_to_itself_least
    : Settings.ofMembers [("eq_tolerance", .number (Float.ofBits 1))]
        = .ok { Settings.default with tolerance := .real (Float.ofBits 1) }
      ∧ Evaluator.verdicts ⟨.default, (Numeric.real (Float.ofBits 1)).ceiling⟩
          { Context.zero with x := 0.5 } (.var "x") (.var "x")
        = (.ok 1.0, .ok 0.0) := by
  have accepted : Settings.ofMembers [("eq_tolerance", .number (Float.ofBits 1))]
      = .ok { Settings.default with tolerance := .real (Float.ofBits 1) } :=
    Settings.ofMembers_tolerance (.real (Float.ofBits 1)) (by decide +kernel)
  have number : (Numeric.real (Float.ofBits 1)).toFloat.isNaN = false := by decide +kernel
  have positive : (Numeric.real (Float.ofBits 1)).isAtMostZero = false := by decide +kernel
  have finite : (0.5 : Float).isFinite = true := by decide +kernel
  -- the tolerance has a name, so that nothing computes its ceiling
  generalize Numeric.real (Float.ofBits 1) = least at accepted number positive ⊢
  exact ⟨accepted, (equal_to_itself accepted rfl rfl finite).1 ⟨number, positive⟩⟩

/-- By the tolerance zero, which is accepted, a formula is not equal to itself. -/
theorem different_from_itself
    : Settings.ofMembers [("eq_tolerance", .integer 0)]
        = .ok { Settings.default with tolerance := .whole 0 }
      ∧ parseSource (joined .equal "x" "x") = .ok (.binary .equal (.var "x") (.var "x"))
      ∧ Evaluator.value ⟨.default, (Numeric.whole 0).ceiling⟩ .zero (.var "x") = .ok 0.0
      ∧ Evaluator.verdicts ⟨.default, (Numeric.whole 0).ceiling⟩ .zero (.var "x") (.var "x")
        = (.ok 0.0, .ok 1.0) := by
  have scanned : tokenize "(x) == (x)" = .ok
      [⟨.opening, "(", 0, "("⟩, ⟨.name, "x", 1, "x"⟩, ⟨.closing, ")", 2, ")"⟩,
       ⟨.operator, "==", 4, "=="⟩, ⟨.opening, "(", 7, "("⟩, ⟨.name, "x", 8, "x"⟩,
       ⟨.closing, ")", 9, ")"⟩] := by decide +kernel
  exact ⟨rfl, parseSource_eq_ok_iff.mpr ⟨_, scanned, rfl⟩, rfl, by decide +kernel⟩

end Wavetable.Formula
