import Wavetable.Formula.Compiled
import Wavetable.Formula.Evaluation
import Wavetable.Proofs.Formula.RoundTrip

/-!
Why a formula that was read has no value. With the built-in functions, either the formula itself is
at fault, by a name that stands for nothing or by the number of arguments of a call, or the
parameter is too large for a double.
-/

namespace Wavetable.Formula

open Number

/-- The formula names what does not exist or calls a function with a wrong number of arguments. -/
def EvalError.IsOfFormula : EvalError → Prop
  | .unknownVariable _ => True
  | .unknownFunction _ => True
  | .noArguments _ => True
  | .wrongArguments _ _ => True
  | _ => False

/-- The parameter is given and lies beyond the doubles. -/
def Context.Overflows (context : Context) : Prop :=
  ∃ q, context.q = some q ∧ ofInteger? q = none

/-- What a failure may be in a context: a fault of the formula, or a parameter that is too large. -/
def EvalError.Explained (context : Context) (error : EvalError) : Prop :=
  error.IsOfFormula ∨ (error = .parameterTooLarge ∧ context.Overflows)

/-- A function has a value for every number of arguments that its arity admits. -/
def Function.Total (function : Function) : Prop :=
  ∀ name args, Registry.arityError? name function.arity args.length = none
    → ∃ x, function.run args = .ok x

theorem Function.total_unary (f : Float → Float) : (Function.unary f).Total := by
  intro name args admitted
  cases args with
  | nil => simp [Function.unary, Registry.arityError?] at admitted
  | cons x rest => exact ⟨f x, rfl⟩

theorem Function.total_variadic (f : Float → List Float → Float)
    : (Function.variadic f).Total := by
  intro name args admitted
  cases args with
  | nil => simp [Function.variadic, Registry.arityError?] at admitted
  | cons x rest => exact ⟨f x rest, rfl⟩

theorem Function.total_guarded (f : Float → Float) : (Function.guarded f).Total :=
  total_unary _

theorem Function.total_positiveOnly (f : Float → Float) : (Function.positiveOnly f).Total :=
  total_unary _

/-- Every function of a registry has a value for the arguments that its arity admits. -/
def Registry.Total (registry : Registry) : Prop :=
  ∀ entry ∈ registry.entries, entry.2.Total

theorem Registry.total_default : Registry.default.Total := by
  simp [Registry.Total, Registry.default, builtins, Function.total_unary, Function.total_variadic,
    Function.total_guarded, Function.total_positiveOnly]

theorem Registry.arityError?_isOfFormula {name : String} {arity : Arity} {count : Nat}
    {error : EvalError} (found : arityError? name arity count = some error)
    : error.IsOfFormula := by
  cases arity <;>
    · simp only [arityError?] at found
      split at found <;> cases found
      exact trivial

/-- A call fails only by a name without a function or a wrong number of arguments. -/
theorem Registry.Total.call_fails {registry : Registry} (total : registry.Total) {name : String}
    {args : List Float} {error : EvalError} (failed : registry.call name args = .error error)
    : error.IsOfFormula := by
  unfold call lookup find? at failed
  cases found : registry.entries.find? (·.1 == name) with
  | none =>
      obtain rfl : .unknownFunction name = error := by simpa [found] using failed
      exact trivial
  | some entry =>
      simp only [found, Option.map_some] at failed
      split at failed
      next complaint refused =>
        obtain rfl : complaint = error := by simpa using failed
        exact arityError?_isOfFormula refused
      next admitted =>
        obtain ⟨x, run⟩ := total entry (List.mem_of_find?_eq_some found) name args admitted
        rw [run] at failed
        contradiction

/-- A variable fails only where it stands for nothing, or for a parameter that is too large. -/
theorem Context.resolve_fails {context : Context} {name : String} {error : EvalError}
    (failed : context.resolve name = .error error)
    : error.Explained context := by
  unfold resolve at failed
  split at failed
  case h_10 =>
    unfold parameterValue at failed
    split at failed
    next => contradiction
    next q given =>
      split at failed
      next => contradiction
      next beyond =>
        obtain rfl : .parameterTooLarge = error := by simpa using failed
        exact .inr ⟨rfl, q, given, beyond⟩
  case h_11 =>
    obtain rfl : .unknownVariable name = error := by simpa using failed
    exact .inl trivial
  all_goals contradiction

section
variable {evaluator : Evaluator} {context : Context}

mutual

/-- An expression that a formula can write fails only by a fault of the formula or a parameter that
is too large, by induction on the expression.
-/
theorem value_fails (total : evaluator.functions.Total) {error : EvalError} (e : Expr)
    (formed : e.WellFormed) (failed : evaluator.value context e = .error error)
    : error.Explained context := by
  match e with
  | .number x => simp [Evaluator.value] at failed
  | .var name =>
      rw [Evaluator.value] at failed
      exact Context.resolve_fails failed
  | .unary op operand =>
      rw [Evaluator.value] at failed
      split at failed
      next error' inner =>
        obtain rfl : error' = error := by simpa using failed
        exact value_fails total operand formed inner
      next => contradiction
  | .binary op left right =>
      rw [Evaluator.value] at failed
      split at failed
      next error' first =>
        obtain rfl : error' = error := by simpa using failed
        exact value_fails total left formed.1 first
      next =>
        split at failed
        next => contradiction
        next =>
          split at failed
          next error' second =>
            obtain rfl : error' = error := by simpa using failed
            exact value_fails total right formed.2 second
          next => contradiction
  | .call name args =>
      rw [Evaluator.value] at failed
      split at failed
      next error' inner =>
        obtain rfl : error' = error := by simpa using failed
        exact values_fail total args formed.2 inner
      next => exact .inl (total.call_fails failed)

theorem values_fail (total : evaluator.functions.Total) {error : EvalError} (args : List Expr)
    (formed : Expr.AllWellFormed args) (failed : evaluator.values context args = .error error)
    : error.Explained context := by
  match args with
  | [] => simp [Evaluator.values] at failed
  | e :: rest =>
      rw [Evaluator.values] at failed
      split at failed
      next error' first =>
        obtain rfl : error' = error := by simpa using failed
        exact value_fails total e formed.1 first
      next =>
        split at failed
        next error' later =>
          obtain rfl : error' = error := by simpa using failed
          exact values_fail total rest formed.2 later
        next => contradiction

end

end

/-- A formula that was read has a value with the built-in functions, or fails by a fault of its own,
or fails because the parameter is given and lies beyond the doubles.
-/
theorem value_or_explained_failure {source : String} {formula : Compiled}
    (accepted : compile source = .ok formula) (tolerance : Float) (context : Context)
    : (∃ x, Evaluator.value ⟨.default, tolerance⟩ context formula.tree = .ok x)
      ∨ ∃ error, Evaluator.value ⟨.default, tolerance⟩ context formula.tree = .error error
          ∧ (error.IsOfFormula ∨ (error = .parameterTooLarge ∧ context.Overflows)) := by
  have formed : formula.tree.WellFormed := by
    unfold compile at accepted
    split at accepted
    next => contradiction
    next tree parsed =>
      obtain rfl : Compiled.ofTree source tree = formula := by simpa using accepted
      exact wellFormed_of_parseSource parsed
  cases evaluated : Evaluator.value ⟨.default, tolerance⟩ context formula.tree with
  | ok x => exact .inl ⟨x, rfl⟩
  | error error => exact .inr ⟨error, rfl, value_fails Registry.total_default _ formed evaluated⟩

/-- The greatest of a parameter that is absent alone is a formula that can be read. -/
theorem value_or_explained_failure_call
    : compile "max(q)" = .ok (.ofTree "max(q)" (.call "max" [.var "q"]))
      ∧ ((∃ x, Evaluator.value .default .zero (.call "max" [.var "q"]) = .ok x)
        ∨ ∃ error, Evaluator.value .default .zero (.call "max" [.var "q"]) = .error error
            ∧ (error.IsOfFormula ∨ (error = .parameterTooLarge ∧ Context.zero.Overflows))) := by
  have accepted : compile "max(q)" = .ok (.ofTree "max(q)" (.call "max" [.var "q"])) := rfl
  exact ⟨accepted, value_or_explained_failure accepted defaultTolerance .zero⟩

/-- The formula that only names the parameter has no value where that is `2 ^ 1024`, and the failure
is no fault of the formula.
-/
theorem value_parameter_overflow
    : ∃ formula error, compile "q" = .ok formula
        ∧ Evaluator.value .default { Context.zero with q := some ((2 ^ 256) ^ 4) } formula.tree
          = .error error
        ∧ ¬ error.IsOfFormula := by
  have beyond : ofInteger? ((2 ^ 256) ^ 4) = none := by decide +kernel
  have failed : Evaluator.value .default { Context.zero with q := some ((2 ^ 256) ^ 4) } (.var "q")
      = .error .parameterTooLarge := by
    simp only [Evaluator.value, Context.resolve, parameterValue, beyond]
  exact ⟨.ofTree "q" (.var "q"), .parameterTooLarge, rfl, failed, id⟩

end Wavetable.Formula
