import Wavetable.Formula.Builtin
import Wavetable.Formula.Expr

/-!
The value of an expression for one sample. Operands and arguments are evaluated from left to
right, and the first failure counts. Only the two logical operators leave out their right
operand, where the left one decides.
-/

namespace Wavetable.Formula

open Number

/-- What the variables of a formula stand for: the place of the sample in its frame and of the
frame in the table, the sample before, the same sample of the selected frame, a random number,
and a parameter that may be absent.
-/
structure Context where
  x : Float
  w : Float
  y : Float
  z : Float
  input : Float
  selected : Float
  random : Float
  q : Option Int
  deriving Repr

/-- The context in which everything is zero and the parameter is absent. -/
def Context.zero : Context :=
  ⟨0.0, 0.0, 0.0, 0.0, 0.0, 0.0, 0.0, none⟩

/-- Functions, and the distance from which on two numbers count as different. -/
structure Evaluator where
  functions : Registry
  tolerance : Float

/-- The usual distance from which on two numbers count as different. -/
def defaultTolerance : Float := 1e-6

/-- The evaluator with the built-in functions and the usual tolerance. -/
def Evaluator.default : Evaluator :=
  ⟨.default, defaultTolerance⟩

/-- The ratio of a circle's circumference to its diameter. -/
def pi : Float := 3.141592653589793

/-- The base of the natural logarithm. -/
def euler : Float := 2.718281828459045

/-- The parameter as a number; zero where it is absent. -/
def parameterValue : Option Int → Except EvalError Float
  | none => .ok 0.0
  | some q =>
      match ofInteger? q with
      | some x => .ok x
      | none => .error .parameterTooLarge

def Context.resolve (context : Context) (name : String) : Except EvalError Float :=
  match name with
  | "pi" => .ok pi
  | "e" => .ok euler
  | "x" => .ok context.x
  | "w" => .ok context.w
  | "y" => .ok context.y
  | "z" => .ok context.z
  | "in" => .ok context.input
  | "sel" => .ok context.selected
  | "rand" => .ok context.random
  | "q" => parameterValue context.q
  | name => .error (.unknownVariable name)

/-- Every number but the two zeros is true. -/
def isTrue (x : Float) : Bool :=
  x != 0.0

def ofTruth (b : Bool) : Float :=
  if b then 1.0 else 0.0

/-- The value of an operator before an operand. -/
def UnaryOp.apply : UnaryOp → Float → Float
  | .negate, x => -x
  | .invert, x => ofTruth (x == 0.0)
  | .keep, x => x

/-- A quotient, zero where the divisor is zero. -/
def quotient (left right : Float) : Float :=
  if right != 0.0 then left / right else 0.0

/-- A power, zero where it is NaN or infinite. -/
def power (base exponent : Float) : Float :=
  finiteOrZero (Float.pow base exponent)

/-- The value of an operator between two operands that are both evaluated. The logical ones are
given by the truth of their operands.
-/
def BinaryOp.apply (tolerance : Float) : BinaryOp → Float → Float → Float
  | .add, left, right => left + right
  | .subtract, left, right => left - right
  | .multiply, left, right => left * right
  | .divide, left, right => quotient left right
  | .power, left, right => Formula.power left right
  | .less, left, right => ofTruth (left < right)
  | .greater, left, right => ofTruth (left > right)
  | .lessEqual, left, right => ofTruth (left ≤ right)
  | .greaterEqual, left, right => ofTruth (left ≥ right)
  | .equal, left, right => ofTruth ((left - right).abs < tolerance)
  | .notEqual, left, right => ofTruth ((left - right).abs ≥ tolerance)
  | .both, left, right => ofTruth (isTrue left && isTrue right)
  | .either, left, right => ofTruth (isTrue left || isTrue right)

/-- The value that the left operand of a logical operator decides on its own. -/
def BinaryOp.shortcut? : BinaryOp → Float → Option Float
  | .both, left => if isTrue left then none else some 0.0
  | .either, left => if isTrue left then some 1.0 else none
  | _, _ => none

mutual

def Evaluator.value (evaluator : Evaluator) (context : Context) : Expr → Except EvalError Float
  | .number x => .ok x
  | .var name => context.resolve name
  | .unary op operand =>
      match evaluator.value context operand with
      | .error error => .error error
      | .ok x => .ok (op.apply x)
  | .binary op left right =>
      match evaluator.value context left with
      | .error error => .error error
      | .ok x =>
          match op.shortcut? x with
          | some result => .ok result
          | none =>
              match evaluator.value context right with
              | .error error => .error error
              | .ok y => .ok (op.apply evaluator.tolerance x y)
  | .call name args =>
      match evaluator.values context args with
      | .error error => .error error
      | .ok xs => evaluator.functions.call name xs
  | .misplaced op left right =>
      match evaluator.value context left with
      | .error error => .error error
      | .ok _ =>
          match evaluator.value context right with
          | .error error => .error error
          | .ok _ => .error (.unsupportedOperator op)
  | .foreign kind _ _ => .error (.unsupportedKind kind)

/-- The values of expressions, up to the first that has none. -/
def Evaluator.values (evaluator : Evaluator) (context : Context)
    : List Expr → Except EvalError (List Float)
  | [] => .ok []
  | e :: rest =>
      match evaluator.value context e with
      | .error error => .error error
      | .ok x =>
          match evaluator.values context rest with
          | .error error => .error error
          | .ok xs => .ok (x :: xs)

end

end Wavetable.Formula
