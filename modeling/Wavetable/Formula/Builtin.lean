import Wavetable.Formula.Function
import Wavetable.Number.Double

/-!
The functions that every formula may call. Each has a value for all numbers: where a result is
NaN or infinite because of the function itself, it counts as zero.
-/

namespace Wavetable.Formula

open Number

def Function.unary (f : Float → Float) : Function where
  arity := .exactly 1
  run
    | x :: _ => .ok (f x)
    | [] => .error .argumentMissing

/-- A function of one or more arguments. -/
def Function.variadic (f : Float → List Float → Float) : Function where
  arity := .variadic
  run
    | x :: rest => .ok (f x rest)
    | [] => .error .argumentMissing

/-- A function of one argument whose degenerate results count as zero. -/
def Function.guarded (f : Float → Float) : Function :=
  .unary fun x => finiteOrZero (f x)

/-- A function that is zero for arguments that are not positive. -/
def Function.positiveOnly (f : Float → Float) : Function :=
  .unary fun x => if x > 0.0 then f x else 0.0

/-- The square root; zero for arguments below zero. -/
def squareRoot (x : Float) : Float :=
  if x ≥ 0.0 then x.sqrt else 0.0

/-- One, minus one or zero. -/
def signOf (x : Float) : Float :=
  if x > 0.0 then 1.0 else if x < 0.0 then -1.0 else 0.0

/-- The first of the least numbers, as comparing finds them from left to right. -/
def least (x : Float) (rest : List Float) : Float :=
  rest.foldl (fun best y => if y < best then y else best) x

/-- The first of the greatest numbers, as comparing finds them from left to right. -/
def greatest (x : Float) (rest : List Float) : Float :=
  rest.foldl (fun best y => if y > best then y else best) x

/-- The sum from left to right, beginning with zero. -/
def sum (args : List Float) : Float :=
  args.foldl (· + ·) 0.0

/-- The sum divided by the number of summands. -/
def average (args : List Float) : Float :=
  sum args / Float.ofNat args.length

/-- The functions of every registry to begin with. -/
def builtins : List (String × Function) :=
  [("sin", .unary Float.sin),
   ("cos", .unary Float.cos),
   ("tan", .guarded Float.tan),
   ("asin", .guarded Float.asin),
   ("acos", .guarded Float.acos),
   ("atan", .unary Float.atan),
   ("sinh", .guarded Float.sinh),
   ("cosh", .guarded Float.cosh),
   ("tanh", .unary Float.tanh),
   ("asinh", .guarded Float.asinh),
   ("acosh", .guarded Float.acosh),
   ("atanh", .guarded Float.atanh),
   ("log2", .positiveOnly Float.log2),
   ("log10", .positiveOnly Float.log10),
   ("log", .positiveOnly Float.log10),
   ("ln", .positiveOnly Float.log),
   ("exp", .guarded Float.exp),
   ("sqrt", .unary squareRoot),
   ("sign", .unary signOf),
   ("rint", .unary roundHalfAway),
   ("abs", .unary Float.abs),
   ("min", .variadic least),
   ("max", .variadic greatest),
   ("sum", .variadic fun x rest => sum (x :: rest)),
   ("avg", .variadic fun x rest => average (x :: rest))]

/-- The registry of the built-in functions. -/
def Registry.default : Registry :=
  ⟨builtins⟩

end Wavetable.Formula
