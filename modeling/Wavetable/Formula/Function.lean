import Wavetable.Formula.EvalError
import Wavetable.Text.Distinct

/-!
Functions that formulas may call, by name. A call is checked against the arity before the
function runs, so a function never sees a wrong number of arguments.
-/

namespace Wavetable.Formula

/-- How many arguments a function takes; a variadic one takes at least one. -/
inductive Arity
  | exactly (count : Nat)
  | variadic
  deriving Repr, DecidableEq

/-- An arity as a number, minus one for the variadic ones. -/
def Arity.code : Arity → Int
  | .exactly count => count
  | .variadic => -1

/-- The arity that a number stands for. -/
def Arity.ofCode? (code : Int) : Option Arity :=
  if code = -1 then some .variadic
  else if 0 ≤ code then some (.exactly code.toNat)
  else none

/-- What a function does with its arguments. -/
abbrev Implementation := List Float → Except EvalError Float

/-- A function with its arity. -/
structure Function where
  arity : Arity
  run : Implementation

/-- The functions by name; of those with one name the first counts. -/
structure Registry where
  entries : List (String × Function)

inductive RegistryError
  | invalidFunction
  | invalidArity
  deriving Repr, DecidableEq

def RegistryError.message : RegistryError → String
  | .invalidFunction => "invalid function registration"
  | .invalidArity => "arity must be >= 0 or VARIADIC"

namespace Registry

def empty : Registry :=
  ⟨[]⟩

/-- A registry with one more function, which replaces one of the same name. -/
def insert (registry : Registry) (name : String) (function : Function) : Registry :=
  ⟨(name, function) :: registry.entries⟩

/-- Registers an implementation under a name that is not empty. -/
def register (registry : Registry) (name : String) (run : Option Implementation) (arity : Int)
    : Except RegistryError Registry :=
  match run with
  | none => .error .invalidFunction
  | some run =>
      if name.isEmpty then .error .invalidFunction
      else
        match Arity.ofCode? arity with
        | none => .error .invalidArity
        | some arity => .ok (registry.insert name ⟨arity, run⟩)

def find? (registry : Registry) (name : String) : Option Function :=
  (registry.entries.find? (·.1 == name)).map (·.2)

/-- The function of a name is registered. -/
def contains (registry : Registry) (name : String) : Bool :=
  (registry.find? name).isSome

/-- The names, in order. -/
def names (registry : Registry) : List String :=
  Text.distinct (registry.entries.map (·.1))

/-- The function of a name, or the reason why a call of it fails. -/
def lookup (registry : Registry) (name : String) : Except EvalError Function :=
  match registry.find? name with
  | some function => .ok function
  | none => .error (.unknownFunction name)

def arity (registry : Registry) (name : String) : Except EvalError Arity :=
  (registry.lookup name).map (·.arity)

/-- The complaint about a number of arguments that a function does not take. -/
def arityError? (name : String) (arity : Arity) (count : Nat) : Option EvalError :=
  match arity with
  | .variadic => if count = 0 then some (.noArguments name) else none
  | .exactly expected => if count = expected then none else some (.wrongArguments name expected)

/-- The value of a call with the given arguments. -/
def call (registry : Registry) (name : String) (args : List Float) : Except EvalError Float :=
  match registry.lookup name with
  | .error error => .error error
  | .ok function =>
      match arityError? name function.arity args.length with
      | some error => .error error
      | none => function.run args

end Registry

end Wavetable.Formula
