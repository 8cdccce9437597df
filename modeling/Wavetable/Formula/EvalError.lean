import Wavetable.Formula.Operator

/-!
Why a formula has no value. Degenerate numbers are no reason: they have values of their own.
-/

namespace Wavetable.Formula

inductive EvalError
  | unknownVariable (name : String)
  | unknownFunction (name : String)
  | noArguments (name : String)
  | wrongArguments (name : String) (expected : Nat)
  | argumentMissing
  | unsupportedKind (kind : String)
  | unsupportedOperator (op : UnaryOp)
  | parameterTooLarge
  deriving Repr, DecidableEq

def EvalError.message : EvalError → String
  | .unknownVariable name => "Unknown variable: " ++ name
  | .unknownFunction name => "Unknown function: " ++ name
  | .noArguments name => name ++ " expects at least 1 argument"
  | .wrongArguments name expected =>
      name ++ " expects " ++ toString expected ++ " argument" ++ (if expected = 1 then "" else "s")
  | .argumentMissing => "list index out of range"
  | .unsupportedKind kind => "unsupported node kind: " ++ kind
  | .unsupportedOperator op => "unsupported operator: " ++ op.symbol
  | .parameterTooLarge => "int too large to convert to float"

end Wavetable.Formula
