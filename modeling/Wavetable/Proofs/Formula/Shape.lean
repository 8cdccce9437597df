import Wavetable.Proofs.Formula.Grammar
import Wavetable.Proofs.Formula.Scanning

/-!
The shapes of expressions. Well-formed ones hold only what formulas can write, and the parser
yields no others; the parentheses that printing adds open at most two levels for each level of an
expression.
-/

namespace Wavetable.Formula

/-- A number that formulas can write without a sign: finite, not negative, and not minus zero. -/
def IsAmount (x : Float) : Prop :=
  x.isFinite = true ∧ ¬ x < 0.0 ∧ x ≠ -0.0

namespace Expr

mutual

/-- All numbers are amounts, all names are names of formulas, and every operator is in its place. -/
def WellFormed : Expr → Prop
  | .number value => IsAmount value
  | .var name => IsName name.toList
  | .unary _ operand => WellFormed operand
  | .binary _ left right => WellFormed left ∧ WellFormed right
  | .call name args => IsName name.toList ∧ AllWellFormed args
  | .misplaced _ _ _ => False
  | .foreign _ _ _ => False

def AllWellFormed : List Expr → Prop
  | [] => True
  | e :: rest => WellFormed e ∧ AllWellFormed rest

end

mutual

/-- The number of nodes on the longest way down. -/
def height : Expr → Nat
  | .number _ => 1
  | .var _ => 1
  | .unary _ operand => operand.height + 1
  | .binary _ left right => max left.height right.height + 1
  | .call _ args => heightAll args + 1
  | .misplaced _ left right => max left.height right.height + 1
  | .foreign _ _ children => heightAll children + 1

def heightAll : List Expr → Nat
  | [] => 0
  | e :: rest => max e.height (heightAll rest)

end

mutual

/-- The levels that the printed form of an expression opens inside it. An operator before an operand
opens one and its parentheses another; the parentheses of other operators open one around both
operands, and the right operand opens one more.
-/
def nesting : Expr → Nat
  | .number _ => 0
  | .var _ => 0
  | .unary _ operand => operand.nesting + 1 + 1
  | .binary _ left right => max left.nesting (right.nesting + 1) + 1
  | .call _ args => nestingAll args
  | .misplaced _ left right => max left.nesting (right.nesting + 1) + 1
  | .foreign _ _ _ => 0

def nestingAll : List Expr → Nat
  | [] => 0
  | e :: rest => max (e.nesting + 1) (nestingAll rest)

end

mutual

/-- Printing opens at most two levels for each level of an expression but the topmost, by induction
on the expression.
-/
theorem nesting_le (e : Expr) : e.nesting + 2 ≤ 2 * e.height := by
  match e with
  | .number _ | .var _ | .foreign _ _ _ =>
      simp only [nesting, height]
      omega
  | .unary _ operand =>
      have inner := nesting_le operand
      simp only [nesting, height]
      omega
  | .binary _ left right | .misplaced _ left right =>
      have first := nesting_le left
      have second := nesting_le right
      simp only [nesting, height]
      omega
  | .call _ args =>
      have inner := nestingAll_le args
      simp only [nesting, height]
      omega

theorem nestingAll_le (args : List Expr) : nestingAll args ≤ 2 * heightAll args := by
  match args with
  | [] => simp only [nestingAll, Nat.zero_le]
  | e :: rest =>
      have first := nesting_le e
      have others := nestingAll_le rest
      simp only [nestingAll, heightAll]
      omega

end

end Expr

end Wavetable.Formula
