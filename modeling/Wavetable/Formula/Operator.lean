/-!
The operators of formulas: three that stand before an operand, and thirteen between two, with
their symbols and their binding strength.
-/

namespace Wavetable.Formula

inductive UnaryOp
  | negate
  | invert
  | keep
  deriving Repr, DecidableEq

inductive BinaryOp
  | add
  | subtract
  | multiply
  | divide
  | power
  | less
  | greater
  | lessEqual
  | greaterEqual
  | equal
  | notEqual
  | both
  | either
  deriving Repr, DecidableEq

def UnaryOp.symbol : UnaryOp → String
  | .negate => "-"
  | .invert => "!"
  | .keep => "+"

def BinaryOp.symbol : BinaryOp → String
  | .add => "+"
  | .subtract => "-"
  | .multiply => "*"
  | .divide => "/"
  | .power => "^"
  | .less => "<"
  | .greater => ">"
  | .lessEqual => "<="
  | .greaterEqual => ">="
  | .equal => "=="
  | .notEqual => "!="
  | .both => "&&"
  | .either => "||"

/-- The operators between operands, in the order of their listing. -/
def BinaryOp.all : List BinaryOp :=
  [.add, .subtract, .multiply, .divide, .power, .less, .greater, .lessEqual, .greaterEqual,
   .equal, .notEqual, .both, .either]

/-- The operator between operands that a symbol stands for. -/
def BinaryOp.ofSymbol? (symbol : String) : Option BinaryOp :=
  BinaryOp.all.find? fun op => op.symbol == symbol

/-- The operator before an operand that a symbol stands for. -/
def UnaryOp.ofSymbol? (symbol : String) : Option UnaryOp :=
  [UnaryOp.negate, .invert, .keep].find? fun op => op.symbol == symbol

/-- The binding strength, from one for the weakest to seven. -/
def BinaryOp.strength : BinaryOp → Nat
  | .either => 1
  | .both => 2
  | .equal => 3
  | .notEqual => 3
  | .less => 4
  | .greater => 4
  | .lessEqual => 4
  | .greaterEqual => 4
  | .add => 5
  | .subtract => 5
  | .multiply => 6
  | .divide => 6
  | .power => 7

/-- The least strength of an operator inside the right operand. Only powers group to the right. -/
def BinaryOp.rightStrength : BinaryOp → Nat
  | .power => 7
  | op => op.strength + 1

/-- An operator is found by its symbol. -/
theorem BinaryOp.ofSymbol?_symbol (op : BinaryOp) : BinaryOp.ofSymbol? op.symbol = some op := by
  cases op <;> decide

end Wavetable.Formula
