import Wavetable.Formula.Machine

/-!
A machine that follows an expression is never stuck. Its tasks are balanced against the values on
the stack: each finds those that it takes, and one value is left behind the last task.
-/

namespace Wavetable.Formula

section
variable {evaluator : Evaluator} {context : Context}

/-- The number of values that an operation takes is right for it. -/
def Operation.Takes : Operation → Nat → Prop
  | .unary _, count => count = 1
  | .binary _, count => count = 2
  | .call _, _ => True
  | .misplaced _, count => count = 2

theorem Operation.Takes.applies (evaluator : Evaluator) {operation : Operation} {xs : List Float}
    (takes : operation.Takes xs.length)
    : ∃ result, operation.apply? evaluator xs = some result := by
  match operation, xs, takes with
  | .unary op, [x], _ => exact ⟨_, rfl⟩
  | .binary op, [x, y], _ => exact ⟨_, rfl⟩
  | .call name, xs, _ => exact ⟨_, rfl⟩
  | .misplaced op, [x, y], _ => exact ⟨_, rfl⟩

/-- The number of values that a task takes from the stack. -/
def Task.pops : Task → Nat
  | .evaluate _ => 0
  | .combine _ count => count
  | .decide _ _ => 1
  | .normalize => 1

/-- Tasks in front of which lie so many values find enough of them, each puts one back, and one
is left behind the last.
-/
def Balanced : List Task → Nat → Prop
  | [], count => count = 1
  | task :: tasks, count =>
      task.pops ≤ count ∧ Balanced tasks (count - task.pops + 1)
      ∧ ∀ operation count, task = .combine operation count → operation.Takes count

theorem balanced_evaluate {e : Expr} {tasks : List Task} {count : Nat}
    : Balanced (.evaluate e :: tasks) count ↔ Balanced tasks (count + 1) := by
  simp [Balanced, Task.pops]

theorem balanced_combine {operation : Operation} {taken : Nat} {tasks : List Task} {count : Nat}
    : Balanced (.combine operation taken :: tasks) (count + taken)
      ↔ operation.Takes taken ∧ Balanced tasks (count + 1) := by
  simp [Balanced, Task.pops, and_comm]

/-- The parts of an operation put back as many values as it takes, by induction on the parts. -/
theorem balanced_ofParts {operation : Operation} {parts : List Expr} {tasks : List Task}
    {count : Nat}
    : Balanced (Task.ofParts operation parts ++ tasks) count
      ↔ operation.Takes parts.length ∧ Balanced tasks (count + 1) := by
  have pushed : ∀ (es : List Expr) tasks count,
      Balanced (es.map .evaluate ++ tasks) count ↔ Balanced tasks (count + es.length) := by
    intro es
    induction es with
    | nil => simp
    | cons e rest ih =>
        intro tasks count
        rw [List.map_cons, List.cons_append, balanced_evaluate, ih, List.length_cons]
        simp only [Nat.add_assoc, Nat.add_comm 1]
  rw [Task.ofParts, List.append_assoc, pushed, List.singleton_append, balanced_combine]

/-- A step keeps the balance and does not find too few values. -/
def Step.Keeps : Step → Prop
  | .next machine => Balanced machine.tasks machine.values.length
  | .done outcome => outcome ≠ .stuck

theorem Step.Keeps.push {tasks : List Task} {values : List Float} {result}
    (balanced : Balanced tasks (values.length + 1))
    : (Step.push tasks values result).Keeps := by
  cases result with
  | error error => simp [Step.push, Step.Keeps]
  | ok x => exact balanced

theorem keeps_evaluate {tasks : List Task} {values : List Float} (e : Expr)
    (balanced : Balanced tasks (values.length + 1))
    : (Step.evaluate context tasks values e).Keeps := by
  cases e with
  | number x => exact balanced
  | var name => exact .push balanced
  | unary op operand => exact balanced_ofParts.mpr ⟨rfl, balanced⟩
  | binary op left right =>
      simp only [Step.evaluate]
      split
      next =>
        refine balanced_evaluate.mpr ⟨Nat.le_add_left _ _, ?_, by simp⟩
        exact balanced
      next => exact balanced_ofParts.mpr ⟨rfl, balanced⟩
  | call name args => exact balanced_ofParts.mpr ⟨trivial, balanced⟩
  | misplaced op left right => exact balanced_ofParts.mpr ⟨rfl, balanced⟩
  | foreign kind label children => simp [Step.evaluate, Step.Keeps]

theorem keeps_combine {operation : Operation} {count : Nat} {tasks : List Task}
    {values : List Float} (enough : count ≤ values.length) (takes : operation.Takes count)
    (balanced : Balanced tasks (values.length - count + 1))
    : (Step.combine evaluator tasks values operation count).Keeps := by
  have taken : (values.take count).reverse.length = count := by simp [enough]
  obtain ⟨result, applied⟩ := Operation.Takes.applies evaluator (taken.symm ▸ takes)
  simp only [Step.combine, Nat.not_lt.mpr enough, applied, if_false]
  exact .push (by simpa using balanced)

/-- Every step of a balanced machine keeps the balance, by the kind of its next task. -/
theorem Balanced.step (evaluator : Evaluator) (context : Context) {machine : Machine}
    (balanced : Balanced machine.tasks machine.values.length)
    : (machine.step evaluator context).Keeps := by
  obtain ⟨tasks, values⟩ := machine
  cases tasks with
  | nil =>
      obtain ⟨x, rfl⟩ := List.length_eq_one_iff.mp balanced
      simp [Machine.step, Step.Keeps]
  | cons task tasks =>
      obtain ⟨enough, rest, takes⟩ := balanced
      cases task with
      | evaluate e => exact keeps_evaluate e rest
      | combine operation count => exact keeps_combine enough (takes operation count rfl) rest
      | decide op right =>
          cases values with
          | nil => simp [Task.pops] at enough
          | cons x values =>
              simp only [Machine.step, Step.take]
              split
              next => exact rest
              next =>
                -- the value of the right operand takes the place of the one that was looked at
                refine balanced_evaluate.mpr ⟨Nat.le_add_left _ _, ?_, by simp⟩
                exact rest
      | normalize =>
          cases values with
          | nil => simp [Task.pops] at enough
          | cons x values => exact rest

/-- The states that a run passes. -/
inductive Machine.Reaches (evaluator : Evaluator) (context : Context) (first : Machine)
    : Machine → Prop
  | refl : Machine.Reaches evaluator context first first
  | step {machine next} (reached : Machine.Reaches evaluator context first machine)
    (stepped : machine.step evaluator context = .next next)
    : Machine.Reaches evaluator context first next

/-- All states that a run from an expression passes are balanced, by induction on the run. -/
theorem Machine.Reaches.balanced {e : Expr} {machine : Machine}
    (reached : Machine.Reaches evaluator context (.start e) machine)
    : Balanced machine.tasks machine.values.length := by
  induction reached with
  | refl => exact balanced_evaluate.mpr rfl
  | step _ stepped ih =>
      have keeps := ih.step evaluator context
      rwa [stepped] at keeps

end

end Wavetable.Formula
