import Wavetable.Proofs.Formula.Balance

/-!
The machine computes the value of an expression, or stops with the error that it has: from the
expression on top of the tasks, a run comes to its value on top of the values.
-/

namespace Wavetable.Formula

section
variable (evaluator : Evaluator) (context : Context)

/-- What a run comes to behind an attempt: its error, or what follows on its result. -/
def Outcome.after {α} : Except EvalError α → (α → Outcome) → Outcome
  | .error error, _ => .failed error
  | .ok result, goOn => goOn result

/-- The outcome of a run that ends with an attempt. -/
def Outcome.of (result : Except EvalError Float) : Outcome :=
  .after result .value

/-- From some machine a run needs at most as many steps as given to go on in the given way, which
depends on the fuel that is left.
-/
def Machine.Leads (bound : Nat) (machine : Machine) (goOn : Nat → Outcome) : Prop :=
  ∃ cost ≤ bound, ∀ fuel, machine.run evaluator context (fuel + cost) = goOn fuel

variable {evaluator context}

/-- One more step comes before a run. -/
theorem Machine.Leads.step {bound machine next goOn}
    (stepped : machine.step evaluator context = .next next)
    (leads : Machine.Leads evaluator context bound next goOn)
    : Machine.Leads evaluator context (bound + 1) machine goOn := by
  obtain ⟨cost, small, run⟩ := leads
  refine ⟨cost + 1, Nat.succ_le_succ small, fun fuel => ?_⟩
  rw [← Nat.add_assoc, Machine.run, stepped]
  exact run fuel

/-- A step that pushes leads to the rest of the tasks, or ends the run. -/
theorem Machine.Leads.push {machine tasks values result}
    (stepped : machine.step evaluator context = .push tasks values result)
    : Machine.Leads evaluator context 1 machine
        fun fuel => .after result fun x => Machine.run evaluator context fuel ⟨tasks, x :: values⟩
    := by
  refine ⟨1, Nat.le_refl 1, fun fuel => ?_⟩
  rw [Machine.run, stepped]
  cases result <;> rfl

/-- A run that goes on from the result of an attempt is followed by the run from there. -/
theorem Machine.Leads.bind {α} {first second machine} {result : Except EvalError α}
    {next : α → Machine} {goOn : Nat → Outcome}
    (leads : Machine.Leads evaluator context first machine
      fun fuel => .after result fun x => (next x).run evaluator context fuel)
    (failed : ∀ error, result = .error error → ∀ fuel, goOn fuel = .failed error)
    (follows : ∀ x, result = .ok x → Machine.Leads evaluator context second (next x) goOn)
    : Machine.Leads evaluator context (first + second) machine goOn := by
  obtain ⟨cost, small, run⟩ := leads
  cases result with
  | error error =>
      -- an error ends the run, and no steps follow
      refine ⟨cost, Nat.le_add_right_of_le small, fun fuel => ?_⟩
      rw [run, failed error rfl]
      rfl
  | ok x =>
      obtain ⟨cost', small', run'⟩ := follows x rfl
      refine ⟨cost' + cost, ?_, fun fuel => ?_⟩
      · exact Nat.add_comm first second ▸ Nat.add_le_add small' small
      · rw [← Nat.add_assoc, run]
        exact run' fuel

/-- More steps than needed are a bound as well. -/
theorem Machine.Leads.mono {bound bound' machine goOn}
    (leads : Machine.Leads evaluator context bound machine goOn) (small : bound ≤ bound')
    : Machine.Leads evaluator context bound' machine goOn := by
  obtain ⟨cost, within, run⟩ := leads
  exact ⟨cost, Nat.le_trans within small, run⟩

/-- Expressions have one value each. -/
theorem length_values {parts : List Expr} {xs : List Float}
    (valued : evaluator.values context parts = .ok xs)
    : xs.length = parts.length := by
  induction parts generalizing xs with
  | nil =>
      obtain rfl : [] = xs := by simpa [Evaluator.values] using valued
      rfl
  | cons e rest ih =>
      unfold Evaluator.values at valued
      split at valued
      · simp at valued
      next x first =>
        split at valued
        · simp at valued
        next others later =>
          obtain rfl : x :: others = xs := by simpa using valued
          simp [ih later]

/-- An operation takes the values of its parts, which lie on the stack in the opposite order. -/
theorem step_combine {operation : Operation} {xs : List Float} {result} (tasks : List Task)
    (values : List Float) (applied : operation.apply? evaluator xs = some result)
    : Machine.step evaluator context
        ⟨.combine operation xs.length :: tasks, xs.reverse ++ values⟩
      = .push tasks values result := by
  have taken : (xs.reverse ++ values).take xs.length = xs.reverse :=
    List.take_left' xs.length_reverse
  have left : (xs.reverse ++ values).drop xs.length = values :=
    List.drop_left' xs.length_reverse
  have enough : ¬ xs.length + values.length < xs.length := by omega
  simp [Machine.step, Step.take, Step.combine, enough, taken, left, applied]

/-- An expression has the value of an operation on the values of its parts. -/
def Operation.Yields (evaluator : Evaluator) (context : Context) (operation : Operation)
    (parts : List Expr) (e : Expr) : Prop :=
  match evaluator.values context parts with
  | .error error => evaluator.value context e = .error error
  | .ok xs => operation.apply? evaluator xs = some (evaluator.value context e)

/-- The parts of an operation lead to their values, and these to the value of the whole. -/
theorem Operation.Yields.leads {operation : Operation} {parts : List Expr} {e : Expr} {bound : Nat}
    {values : List Float} (yields : operation.Yields evaluator context parts e)
    (evaluated : ∀ tasks,
      Machine.Leads evaluator context bound ⟨parts.map .evaluate ++ tasks, values⟩ fun fuel =>
        .after (evaluator.values context parts) fun xs =>
          Machine.run evaluator context fuel ⟨tasks, xs.reverse ++ values⟩)
    (tasks : List Task)
    : Machine.Leads evaluator context (bound + 1)
        ⟨Task.ofParts operation parts ++ tasks, values⟩ fun fuel =>
          .after (evaluator.value context e) fun x =>
            Machine.run evaluator context fuel ⟨tasks, x :: values⟩ := by
  unfold Operation.Yields at yields
  rw [Task.ofParts, List.append_assoc]
  refine (evaluated _).bind ?_ ?_
  · intro error valued fuel
    simp only [valued] at yields
    rw [yields]
    rfl
  · intro xs valued
    simp only [valued] at yields
    rw [List.singleton_append, ← length_values valued]
    exact .push (step_combine tasks values yields)

theorem yields_unary (op : UnaryOp) (operand : Expr)
    : (Operation.unary op).Yields evaluator context [operand] (.unary op operand) := by
  unfold Operation.Yields
  cases valued : evaluator.value context operand <;>
    simp [Evaluator.values, Evaluator.value, Operation.apply?, valued]

/-- An operator that is not logical looks at both operands. -/
theorem yields_binary {op : BinaryOp} (eager : op.isLogical = false) (left right : Expr)
    : (Operation.binary op).Yields evaluator context [left, right] (.binary op left right) := by
  have open? : ∀ x, op.shortcut? x = none := by
    intro x
    cases op <;> first | rfl | contradiction
  unfold Operation.Yields
  cases first : evaluator.value context left <;> cases second : evaluator.value context right <;>
    simp [Evaluator.values, Evaluator.value, Operation.apply?, first, second, open?]

theorem yields_misplaced (op : UnaryOp) (left right : Expr)
    : (Operation.misplaced op).Yields evaluator context [left, right]
        (.misplaced op left right) := by
  unfold Operation.Yields
  cases first : evaluator.value context left <;> cases second : evaluator.value context right <;>
    simp [Evaluator.values, Evaluator.value, Operation.apply?, first, second]

theorem yields_call (name : String) (args : List Expr)
    : (Operation.call name).Yields evaluator context args (.call name args) := by
  unfold Operation.Yields
  cases valued : evaluator.values context args <;>
    simp [Evaluator.value, Operation.apply?, valued]

/-- A logical operator that its left operand leaves open has the truth of its right operand. -/
theorem BinaryOp.apply_of_open {op : BinaryOp} {x : Float} (logical : op.isLogical = true)
    (undecided : op.shortcut? x = none) (tolerance y : Float)
    : op.apply tolerance x y = ofTruth (isTrue y) := by
  cases op <;> simp_all [BinaryOp.isLogical, BinaryOp.shortcut?, BinaryOp.apply]

/-- A logical operator waits for its left operand and leads to the value of the whole, with the
right operand evaluated only where the left one leaves the value open.
-/
theorem leads_logical {op : BinaryOp} {left right : Expr} {bound bound' : Nat} {tasks : List Task}
    {values : List Float} (logical : op.isLogical = true)
    (first : ∀ tasks,
      Machine.Leads evaluator context bound ⟨.evaluate left :: tasks, values⟩ fun fuel =>
        .after (evaluator.value context left) fun x =>
          Machine.run evaluator context fuel ⟨tasks, x :: values⟩)
    (second : ∀ tasks,
      Machine.Leads evaluator context bound' ⟨.evaluate right :: tasks, values⟩ fun fuel =>
        .after (evaluator.value context right) fun x =>
          Machine.run evaluator context fuel ⟨tasks, x :: values⟩)
    : Machine.Leads evaluator context (bound + (bound' + 3))
        ⟨.evaluate (.binary op left right) :: tasks, values⟩ fun fuel =>
          .after (evaluator.value context (.binary op left right)) fun x =>
            Machine.run evaluator context fuel ⟨tasks, x :: values⟩ := by
  have taken : Machine.step evaluator context ⟨.evaluate (.binary op left right) :: tasks, values⟩
      = .next ⟨.evaluate left :: .decide op right :: tasks, values⟩ := by
    simp [Machine.step, Step.take, Step.evaluate, logical]
  refine (Machine.Leads.step taken ((first _).bind ?_ ?_)).mono
    (Nat.le_of_eq (Nat.add_assoc bound (bound' + 2) 1))
  · intro error failed fuel
    simp [Evaluator.value, failed, Outcome.after]
  · intro x valued
    cases decided : op.shortcut? x with
    | some result =>
        -- the left operand decides, and the right one is dropped
        have value : evaluator.value context (.binary op left right) = .ok result := by
          simp [Evaluator.value, valued, decided]
        have stepped : Machine.step evaluator context ⟨.decide op right :: tasks, x :: values⟩
            = .push tasks values (evaluator.value context (.binary op left right)) := by
          simp [Machine.step, Step.take, decided, value, Step.push]
        exact (Machine.Leads.push stepped).mono (by omega)
    | none =>
        -- the right operand is evaluated, and its truth is the value of the whole
        have stepped : Machine.step evaluator context ⟨.decide op right :: tasks, x :: values⟩
            = .next ⟨.evaluate right :: .normalize :: tasks, values⟩ := by
          simp [Machine.step, Step.take, decided]
        refine Machine.Leads.step stepped ((second _).bind ?_ ?_)
        · intro error failed fuel
          simp [Evaluator.value, valued, decided, failed, Outcome.after]
        · intro y valued'
          have value : evaluator.value context (.binary op left right)
              = .ok (ofTruth (isTrue y)) := by
            simp [Evaluator.value, valued, decided, valued', op.apply_of_open logical decided]
          apply Machine.Leads.push
          rw [value]
          rfl

/-- The parts of an operation leave room for the step that takes them up and the one that puts their
values together.
-/
theorem three_mul_sizeAll_le {e : Expr} {parts : List Expr} (whole : e.children = parts)
    : 3 * Expr.sizeAll parts + 1 + 1 ≤ 3 * e.size := by
  rw [e.size_eq, whole]
  omega

/-- Every expression has a node. -/
theorem one_le_three_mul_size (e : Expr) : 1 ≤ 3 * e.size := by
  rw [e.size_eq]
  omega

mutual

/-- An expression leads to its value within three steps for each node, by induction on the
expression and its parts.
-/
theorem leads_evaluate (evaluator : Evaluator) (context : Context) (e : Expr) (tasks : List Task)
    (values : List Float)
    : Machine.Leads evaluator context (3 * e.size) ⟨.evaluate e :: tasks, values⟩ fun fuel =>
        .after (evaluator.value context e) fun x =>
          Machine.run evaluator context fuel ⟨tasks, x :: values⟩ := by
  match e with
  | .number x => exact (Machine.Leads.push rfl).mono (one_le_three_mul_size _)
  | .var name => exact (Machine.Leads.push rfl).mono (one_le_three_mul_size _)
  | .unary op operand =>
      have parts := (yields_unary op operand).leads
        (leads_evaluateAll evaluator context [operand] · values) tasks
      exact (Machine.Leads.step rfl parts).mono (three_mul_sizeAll_le rfl)
  | .binary op left right =>
      cases logical : op.isLogical with
      | true =>
          exact (leads_logical logical (leads_evaluate evaluator context left · values)
            (leads_evaluate evaluator context right · values)).mono (by rw [Expr.size]; omega)
      | false =>
          have taken : Machine.step evaluator context
                ⟨.evaluate (.binary op left right) :: tasks, values⟩
              = .next ⟨Task.ofParts (.binary op) [left, right] ++ tasks, values⟩ := by
            simp [Machine.step, Step.take, Step.evaluate, logical]
          have parts := (yields_binary logical left right).leads
            (leads_evaluateAll evaluator context [left, right] · values) tasks
          exact (Machine.Leads.step taken parts).mono (three_mul_sizeAll_le rfl)
  | .call name args =>
      have parts := (yields_call name args).leads
        (leads_evaluateAll evaluator context args · values) tasks
      exact (Machine.Leads.step rfl parts).mono (three_mul_sizeAll_le rfl)
  | .misplaced op left right =>
      have parts := (yields_misplaced op left right).leads
        (leads_evaluateAll evaluator context [left, right] · values) tasks
      exact (Machine.Leads.step rfl parts).mono (three_mul_sizeAll_le rfl)
  | .foreign kind label children =>
      have failed : Machine.step evaluator context
            ⟨.evaluate (.foreign kind label children) :: tasks, values⟩
          = .push tasks values (.error (.unsupportedKind kind)) := rfl
      exact (Machine.Leads.push failed).mono (one_le_three_mul_size _)
termination_by 2 * e.size
decreasing_by all_goals (simp only [Expr.size, Expr.sizeAll]; omega)

theorem leads_evaluateAll (evaluator : Evaluator) (context : Context) (parts : List Expr)
    (tasks : List Task) (values : List Float)
    : Machine.Leads evaluator context (3 * Expr.sizeAll parts)
        ⟨parts.map .evaluate ++ tasks, values⟩ fun fuel =>
        .after (evaluator.values context parts) fun xs =>
          Machine.run evaluator context fuel ⟨tasks, xs.reverse ++ values⟩ := by
  match parts with
  | [] => exact ⟨0, by simp [Expr.sizeAll], fun fuel => by simp [Evaluator.values, Outcome.after]⟩
  | e :: rest =>
      have first := leads_evaluate evaluator context e (rest.map .evaluate ++ tasks) values
      rw [Expr.sizeAll, Nat.mul_add]
      refine first.bind ?_ ?_
      · intro error failed fuel
        simp [Evaluator.values, failed, Outcome.after]
      · intro x valued
        obtain ⟨cost, small, run⟩ := leads_evaluateAll evaluator context rest tasks (x :: values)
        refine ⟨cost, small, fun fuel => ?_⟩
        rw [run]
        cases later : evaluator.values context rest <;>
          simp [Evaluator.values, valued, later, Outcome.after]
termination_by 2 * Expr.sizeAll parts + 1
decreasing_by
  · rw [Expr.sizeAll]
    omega
  · rw [Expr.sizeAll, Expr.size_eq e]
    omega

end

/-- The value of a logical operation is zero or one. -/
theorem value_logical {op : BinaryOp} {left right : Expr} {x : Float}
    (logical : op.isLogical = true)
    (valued : evaluator.value context (.binary op left right) = .ok x)
    : x = 0.0 ∨ x = 1.0 := by
  simp only [Evaluator.value] at valued
  split at valued
  · simp at valued
  next first =>
    split at valued
    next result decided =>
      obtain rfl : result = x := by simpa using valued
      cases op <;> simp_all [BinaryOp.isLogical, BinaryOp.shortcut?]
    next undecided =>
      split at valued
      · simp at valued
      next second =>
        obtain rfl : _ = x := by simpa using valued
        rw [op.apply_of_open logical undecided, ofTruth]
        split <;> simp

/-- The machine returns the value of every expression, or fails with the error that the expression
has. On the way each task finds the values that it takes, and when no tasks are left there is
exactly one value. The value of a logical operation is zero or one.
-/
theorem run_eq_value (evaluator : Evaluator) (context : Context) (e : Expr)
    : evaluator.run context e = .of (evaluator.value context e)
      ∧ (∀ machine, Machine.Reaches evaluator context (.start e) machine →
          (∀ task tasks, machine.tasks = task :: tasks → task.pops ≤ machine.values.length)
          ∧ (machine.tasks = [] → ∃ x, machine.values = [x])
          ∧ machine.step evaluator context ≠ .done .stuck)
      ∧ ∀ op left right x, op.isLogical = true →
          evaluator.value context (.binary op left right) = .ok x → x = 0.0 ∨ x = 1.0 := by
  refine ⟨?_, ?_, fun op left right x => value_logical⟩
  · obtain ⟨cost, small, run⟩ := leads_evaluate evaluator context e [] []
    -- one step is left over, which finds no more tasks
    have fuel : 3 * e.size + 1 = 3 * e.size - cost + 1 + cost := by omega
    rw [Evaluator.run, Machine.start, fuel, run]
    rfl
  · intro machine reached
    have balanced := reached.balanced
    refine ⟨?_, ?_, ?_⟩
    · intro task tasks pending
      rw [pending] at balanced
      exact balanced.1
    · intro finished
      rw [finished] at balanced
      exact List.length_eq_one_iff.mp balanced
    · intro stuck
      have keeps := balanced.step evaluator context
      rw [stuck] at keeps
      exact keeps rfl

end

end Wavetable.Formula
