import Wavetable.Formula.Operator
import Wavetable.Text.Distinct

/-!
Expressions, the trees that formulas stand for, with their nodes in preorder and the names that
occur in them. A tree built by hand may also hold an operator in the wrong place or a node of a
foreign kind; neither comes out of a formula, and neither has a meaning.
-/

namespace Wavetable.Formula

inductive Expr
  | number (value : Float)
  | var (name : String)
  | unary (op : UnaryOp) (operand : Expr)
  | binary (op : BinaryOp) (left right : Expr)
  | call (name : String) (args : List Expr)
  | misplaced (op : UnaryOp) (left right : Expr)
  | foreign (kind : String) (label : Option String) (children : List Expr)
  deriving Repr, Inhabited

namespace Expr

/-- The direct parts of an expression, from left to right. -/
def children : Expr → List Expr
  | .number _ => []
  | .var _ => []
  | .unary _ operand => [operand]
  | .binary _ left right => [left, right]
  | .call _ args => args
  | .misplaced _ left right => [left, right]
  | .foreign _ _ children => children

mutual

def size : Expr → Nat
  | .number _ => 1
  | .var _ => 1
  | .unary _ operand => operand.size + 1
  | .binary _ left right => left.size + right.size + 1
  | .call _ args => sizeAll args + 1
  | .misplaced _ left right => left.size + right.size + 1
  | .foreign _ _ children => sizeAll children + 1

def sizeAll : List Expr → Nat
  | [] => 0
  | e :: rest => e.size + sizeAll rest

end

theorem sizeAll_append (left right : List Expr)
    : sizeAll (left ++ right) = sizeAll left + sizeAll right := by
  induction left with
  | nil => simp [sizeAll]
  | cons e rest ih => simp [sizeAll, ih, Nat.add_assoc]

/-- An expression is one node more than its parts. -/
theorem size_eq (e : Expr) : e.size = sizeAll e.children + 1 := by
  cases e <;> simp [size, sizeAll, children]

/-- The nodes of pending expressions, taken one at a time: a node is followed by its parts,
which stand before what was pending.
-/
def walkAll : List Expr → List Expr
  | [] => []
  | e :: rest => e :: walkAll (e.children ++ rest)
termination_by pending => sizeAll pending
decreasing_by
  simp only [sizeAll_append, sizeAll, size_eq]
  omega

/-- The nodes of an expression, each before its parts and parts from left to right. -/
def walk (e : Expr) : List Expr :=
  walkAll [e]

def variableName? : Expr → Option String
  | .var name => some name
  | _ => none

def functionName? : Expr → Option String
  | .call name _ => some name
  | _ => none

def variableNames (e : Expr) : List String :=
  Text.distinct (e.walk.filterMap variableName?)

def functionNames (e : Expr) : List String :=
  Text.distinct (e.walk.filterMap functionName?)

/-- A variable of the given name occurs. -/
def mentions (name : String) (e : Expr) : Bool :=
  e.walk.any fun node => node.variableName? == some name

mutual

/-- The same nodes in the same places; numbers are compared as numbers. -/
def same : Expr → Expr → Bool
  | .number left, .number right => left == right
  | .var left, .var right => left == right
  | .unary op operand, .unary op' operand' => op == op' && same operand operand'
  | .binary op left right, .binary op' left' right' =>
      op == op' && same left left' && same right right'
  | .call name args, .call name' args' => name == name' && sameAll args args'
  | .misplaced op left right, .misplaced op' left' right' =>
      op == op' && same left left' && same right right'
  | .foreign kind label parts, .foreign kind' label' parts' =>
      kind == kind' && label == label' && sameAll parts parts'
  | _, _ => false

/-- Expressions that are pairwise the same. -/
def sameAll : List Expr → List Expr → Bool
  | [], [] => true
  | e :: rest, e' :: rest' => same e e' && sameAll rest rest'
  | _, _ => false

end

/-- The answer about two parts: that of the second where the first are the same. -/
def alsoSame : Option Bool → Option Bool → Option Bool
  | some true, second => second
  | first, _ => first

/-- The answer one level further down, if there is one. -/
def oneBelow (levels : Nat) (answer : Nat → Option Bool) : Option Bool :=
  match levels with
  | 0 => none
  | levels + 1 => answer levels

mutual

/-- Whether two expressions are the same, decided from left to right and with so many levels below
the topmost nodes; without an answer where the levels do not suffice.
-/
def sameWithin (levels : Nat) : Expr → Expr → Option Bool
  | .number left, .number right => some (left == right)
  | .var left, .var right => some (left == right)
  | .unary op operand, .unary op' operand' =>
      if op == op' then oneBelow levels fun levels => sameWithin levels operand operand'
      else some false
  | .binary op left right, .binary op' left' right' =>
      if op == op' then
        oneBelow levels fun levels =>
          alsoSame (sameWithin levels left left') (sameWithin levels right right')
      else some false
  | .call name args, .call name' args' =>
      if name == name' then sameAllWithin levels args args' else some false
  | .misplaced op left right, .misplaced op' left' right' =>
      if op == op' then
        oneBelow levels fun levels =>
          alsoSame (sameWithin levels left left') (sameWithin levels right right')
      else some false
  | .foreign kind label parts, .foreign kind' label' parts' =>
      if kind == kind' && label == label' then sameAllWithin levels parts parts' else some false
  | _, _ => some false

/-- Whether the expressions of two lists are pairwise the same. -/
def sameAllWithin (levels : Nat) : List Expr → List Expr → Option Bool
  | [], [] => some true
  | e :: rest, e' :: rest' =>
      alsoSame (oneBelow levels fun levels => sameWithin levels e e')
        (sameAllWithin levels rest rest')
  | _, _ => some false

end

end Expr

end Wavetable.Formula
