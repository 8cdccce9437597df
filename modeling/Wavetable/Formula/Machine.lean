import Wavetable.Formula.Evaluation

/-!
Evaluation by a machine with a stack of tasks and a stack of values, which follows an expression
of any depth without nesting. A machine that finds too few values, or ends with more than one,
is stuck.
-/

namespace Wavetable.Formula

/-- An operation on the values of the parts that were evaluated before it. -/
inductive Operation
  | unary (op : UnaryOp)
  | binary (op : BinaryOp)
  | call (name : String)
  | misplaced (op : UnaryOp)
  deriving Repr, DecidableEq

/-- The value of an operation on the values of its parts, if their number is right. -/
def Operation.apply? (evaluator : Evaluator)
    : Operation → List Float → Option (Except EvalError Float)
  | .unary op, [x] => some (.ok (op.apply x))
  | .binary op, [x, y] => some (.ok (op.apply evaluator.tolerance x y))
  | .call name, xs => some (evaluator.functions.call name xs)
  | .misplaced op, [_, _] => some (.error (.unsupportedOperator op))
  | _, _ => none

/-- A step that the machine still has to take. -/
inductive Task
  | evaluate (e : Expr)
  | combine (operation : Operation) (count : Nat)
  | decide (op : BinaryOp) (right : Expr)
  | normalize

/-- What a machine ends with. -/
inductive Outcome
  | value (x : Float)
  | failed (error : EvalError)
  | stuck
  deriving Repr, DecidableEq

/-- An operator that may leave out its right operand. -/
def BinaryOp.isLogical : BinaryOp → Bool
  | .both => true
  | .either => true
  | _ => false

/-- The tasks of an expression that is neither a number, a variable nor of a foreign kind: the
parts from left to right, then the operation on their values. A logical operator waits for its
left operand before the right one is looked at.
-/
def Task.ofParts (operation : Operation) (parts : List Expr) : List Task :=
  parts.map .evaluate ++ [.combine operation parts.length]

/-- A state of the machine: the tasks, the next one first, and the values, the last one first. -/
structure Machine where
  tasks : List Task
  values : List Float

/-- One step ends the run or leads to another state. -/
inductive Step
  | done (outcome : Outcome)
  | next (machine : Machine)

/-- A value that an attempt yields is pushed, its error ends the run. -/
def Step.push (tasks : List Task) (values : List Float) : Except EvalError Float → Step
  | .ok x => .next ⟨tasks, x :: values⟩
  | .error error => .done (.failed error)

/-- The evaluation of an expression is taken up. -/
def Step.evaluate (context : Context) (tasks : List Task) (values : List Float) : Expr → Step
  | .number x => .push tasks values (.ok x)
  | .var name => .push tasks values (context.resolve name)
  | .unary op operand => .next ⟨Task.ofParts (.unary op) [operand] ++ tasks, values⟩
  | .binary op left right =>
      if op.isLogical then .next ⟨.evaluate left :: .decide op right :: tasks, values⟩
      else .next ⟨Task.ofParts (.binary op) [left, right] ++ tasks, values⟩
  | .call name args => .next ⟨Task.ofParts (.call name) args ++ tasks, values⟩
  | .misplaced op left right => .next ⟨Task.ofParts (.misplaced op) [left, right] ++ tasks, values⟩
  | .foreign kind _ _ => .done (.failed (.unsupportedKind kind))

/-- An operation takes the values of its parts from the stack. -/
def Step.combine (evaluator : Evaluator) (tasks : List Task) (values : List Float)
    (operation : Operation) (count : Nat) : Step :=
  if values.length < count then .done .stuck
  else
    match operation.apply? evaluator (values.take count).reverse with
    | some result => .push tasks (values.drop count) result
    | none => .done .stuck

def Step.take (evaluator : Evaluator) (context : Context) (tasks : List Task)
    (values : List Float) : Task → Step
  | .evaluate e => .evaluate context tasks values e
  | .combine operation count => .combine evaluator tasks values operation count
  | .decide op right =>
      match values with
      | [] => .done .stuck
      | x :: values =>
          match op.shortcut? x with
          | some result => .next ⟨tasks, result :: values⟩
          | none => .next ⟨.evaluate right :: .normalize :: tasks, values⟩
  | .normalize =>
      match values with
      | [] => .done .stuck
      | x :: values => .next ⟨tasks, ofTruth (isTrue x) :: values⟩

def Machine.step (evaluator : Evaluator) (context : Context) (machine : Machine) : Step :=
  match machine.tasks with
  | task :: tasks => .take evaluator context tasks machine.values task
  | [] =>
      match machine.values with
      | [x] => .done (.value x)
      | _ => .done .stuck

/-- The steps of a machine, at most as many as there is fuel. -/
def Machine.run (evaluator : Evaluator) (context : Context) : Nat → Machine → Outcome
  | 0, _ => .stuck
  | fuel + 1, machine =>
      match machine.step evaluator context with
      | .done outcome => outcome
      | .next machine => machine.run evaluator context fuel

/-- The machine that is to evaluate an expression. -/
def Machine.start (e : Expr) : Machine :=
  ⟨[.evaluate e], []⟩

/-- The outcome of the machine for an expression. A node takes at most three steps, and the end
takes one.
-/
def Evaluator.run (evaluator : Evaluator) (context : Context) (e : Expr) : Outcome :=
  (Machine.start e).run evaluator context (3 * e.size + 1)

end Wavetable.Formula
