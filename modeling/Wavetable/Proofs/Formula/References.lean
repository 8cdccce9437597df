import Wavetable.Formula.Machine
import Wavetable.Proofs.Formula.Dependence
import Wavetable.Proofs.Formula.Failures
import Wavetable.Proofs.Number.Wholes

/-!
What the names of a formula refer to. A formula whose variables and calls all refer to something has
a value in every context, and one with a node that refers to nothing has none in any, unless that
node stands behind an operator that may leave it out.
-/

namespace Wavetable.Formula

-----------------------------------------------------------------------------------------
-- References
-----------------------------------------------------------------------------------------

/-- The names that variables may have. -/
def variableWords : List String :=
  ["x", "w", "y", "z", "in", "sel", "rand", "q", "pi", "e"]

/-- A function takes so many arguments. -/
def Arity.Takes : Arity → Nat → Prop
  | .exactly expected, count => count = expected
  | .variadic, count => 0 < count

instance (arity : Arity) (count : Nat) : Decidable (arity.Takes count) :=
  match arity with
  | .exactly expected => inferInstanceAs (Decidable (count = expected))
  | .variadic => inferInstanceAs (Decidable (0 < count))

/-- A variable has one of the names that variables may have, and a call is one of a function that
there is and has a number of arguments that this function takes. All other nodes refer to nothing
outside the formula.
-/
def Expr.Refers (functions : Registry) : Expr → Prop
  | .var name => name ∈ variableWords
  | .call name args => ∃ function ∈ functions.find? name, function.arity.Takes args.length
  | _ => True

instance (functions : Registry) : DecidablePred (Expr.Refers functions)
  | .var name => inferInstanceAs (Decidable (name ∈ variableWords))
  | .call name args =>
      inferInstanceAs
        (Decidable (∃ function ∈ functions.find? name, function.arity.Takes args.length))
  | .number _ | .unary _ _ | .binary _ _ _ | .misplaced _ _ _ | .foreign _ _ _ => .isTrue trivial

/-- A node stands somewhere in an expression, but not in the right operand of a logical operator. -/
inductive Expr.Reaches (node : Expr) : Expr → Prop
  | here : Reaches node node
  | operand {op e} (inside : Reaches node e) : Reaches node (.unary op e)
  | left {op left right} (inside : Reaches node left) : Reaches node (.binary op left right)
  | right {op left right} (ordinary : op.isLogical = false) (inside : Reaches node right)
    : Reaches node (.binary op left right)
  | argument {name args e} (among : e ∈ args) (inside : Reaches node e)
    : Reaches node (.call name args)

theorem Registry.arityError?_eq_none_iff {name : String} {arity : Arity} {count : Nat}
    : arityError? name arity count = none ↔ arity.Takes count := by
  cases arity <;> simp [arityError?, Arity.Takes, Nat.pos_iff_ne_zero]

section
variable {registry : Registry} {name : String}

/-- A call of a function with as many arguments as it takes has a value. -/
theorem Registry.Total.call_succeeds (total : registry.Total) {args : List Float}
    {function : Function} (found : registry.find? name = some function)
    (taken : function.arity.Takes args.length)
    : ∃ x, registry.call name args = .ok x := by
  obtain ⟨entry, member, rfl⟩ := Option.map_eq_some_iff.mp found
  have admitted : arityError? name entry.2.arity args.length = none :=
    arityError?_eq_none_iff.mpr taken
  obtain ⟨x, run⟩ := total entry (List.mem_of_find?_eq_some member) name args admitted
  refine ⟨x, ?_⟩
  rw [call, lookup, found]
  simp only [admitted, run]

/-- A call that refers to no function, or has a number of arguments that it does not take, fails. -/
theorem Registry.call_of_not_refers {args : List Float}
    (missing : ¬ ∃ function ∈ registry.find? name, function.arity.Takes args.length)
    : ∃ error, registry.call name args = .error error := by
  unfold call lookup
  cases found : registry.find? name with
  | none => exact ⟨_, rfl⟩
  | some function =>
      cases refused : arityError? name function.arity args.length with
      | none => exact absurd ⟨function, found, arityError?_eq_none_iff.mp refused⟩ missing
      | some error => exact ⟨error, by simp only [refused]⟩

end

/-- The parameter is absent or in the range of the doubles. The largest one is `2 ^ 1024 - 2 ^ 971`,
and whole numbers that lie less than half a place behind it are rounded to it.
-/
def Context.Fits (context : Context) : Prop :=
  ∀ q, context.q = some q → |(q : ℚ)| < 2 ^ (1024 : Int) - 2 ^ (970 : Int)

theorem Context.Fits.not_overflows {context : Context} (fits : context.Fits)
    : ¬ context.Overflows := by
  rintro ⟨q, given, beyond⟩
  have finite := Number.isFinite_ofInt (fits q given)
  simp [Number.ofInteger?, finite] at beyond

section
variable {context : Context} {name : String}

/-- A name that variables may have is looked up, if the parameter is not too large. -/
theorem Context.resolve_succeeds (fits : ¬ context.Overflows) (known : name ∈ variableWords)
    : ∃ x, context.resolve name = .ok x := by
  simp only [variableWords, List.mem_cons, List.not_mem_nil, or_false] at known
  rcases known with rfl | rfl | rfl | rfl | rfl | rfl | rfl | rfl | rfl | rfl
  case inr.inr.inr.inr.inr.inr.inr.inl =>
    change ∃ x, parameterValue context.q = .ok x
    cases given : context.q with
    | none => exact ⟨_, rfl⟩
    | some q =>
        cases converted : Number.ofInteger? q with
        | none => exact absurd ⟨q, given, converted⟩ fits
        | some x => exact ⟨x, by simp only [parameterValue, converted]⟩
  all_goals exact ⟨_, rfl⟩

theorem Context.resolve_of_unknown (unknown : name ∉ variableWords)
    : ∃ error, context.resolve name = .error error := by
  unfold resolve
  split
  case h_11 => exact ⟨_, rfl⟩
  all_goals exact absurd (by decide) unknown

end

-----------------------------------------------------------------------------------------
-- Values of expressions
-----------------------------------------------------------------------------------------

/-- The nodes of a part of an expression are nodes of the whole. -/
theorem Expr.walk_part {property : Expr → Prop} {e : Expr} (whole : ∀ node ∈ e.walk, property node)
    : ∀ part ∈ e.children, ∀ node ∈ part.walk, property node := fun part member node inside =>
  whole node (mem_walk_iff.mpr (.inr ⟨part, member, inside⟩))

section
variable {evaluator : Evaluator} {context : Context}

mutual

/-- Where all nodes refer to something, there is a value, by induction on the expression. -/
theorem value_succeeds (total : evaluator.functions.Total) (fits : ¬ context.Overflows) (e : Expr)
    (formed : e.WellFormed) (refers : ∀ node ∈ e.walk, node.Refers evaluator.functions)
    : ∃ x, evaluator.value context e = .ok x := by
  have here : e.Refers evaluator.functions := refers e (Expr.mem_walk_iff.mpr (.inl rfl))
  have parts := Expr.walk_part refers
  match e with
  | .number x => exact ⟨x, rfl⟩
  | .var name => exact Context.resolve_succeeds fits here
  | .unary op operand =>
      obtain ⟨x, inner⟩ := value_succeeds total fits operand formed
        (parts operand (by simp [Expr.children]))
      exact ⟨_, by rw [Evaluator.value, inner]⟩
  | .binary op left right =>
      obtain ⟨x, first⟩ := value_succeeds total fits left formed.1
        (parts left (by simp [Expr.children]))
      obtain ⟨y, second⟩ := value_succeeds total fits right formed.2
        (parts right (by simp [Expr.children]))
      rw [Evaluator.value, first]
      cases decided : op.shortcut? x with
      | some result => exact ⟨result, by simp only [decided]⟩
      | none => exact ⟨_, by simp only [decided, second]; rfl⟩
  | .call name args =>
      obtain ⟨function, found, taken⟩ := here
      obtain ⟨xs, inner⟩ := values_succeed total fits args formed.2 parts
      rw [Evaluator.value, inner]
      exact total.call_succeeds found (length_values inner ▸ taken)

theorem values_succeed (total : evaluator.functions.Total) (fits : ¬ context.Overflows)
    (args : List Expr) (formed : Expr.AllWellFormed args)
    (refers : ∀ e ∈ args, ∀ node ∈ e.walk, node.Refers evaluator.functions)
    : ∃ xs, evaluator.values context args = .ok xs := by
  match args with
  | [] => exact ⟨[], rfl⟩
  | e :: rest =>
      obtain ⟨here, others⟩ := List.forall_mem_cons.mp refers
      obtain ⟨x, first⟩ := value_succeeds total fits e formed.1 here
      obtain ⟨xs, later⟩ := values_succeed total fits rest formed.2 others
      exact ⟨x :: xs, by rw [Evaluator.values, first, later]⟩

end

/-- One of the arguments has no value, so they have none together. -/
theorem values_fail_of_mem {args : List Expr} {e : Expr} (among : e ∈ args)
    (failed : ∃ error, evaluator.value context e = .error error)
    : ∃ error, evaluator.values context args = .error error := by
  induction args with
  | nil => contradiction
  | cons first rest ih =>
      rw [Evaluator.values]
      cases valued : evaluator.value context first with
      | error error => exact ⟨error, rfl⟩
      | ok x =>
          rcases List.mem_cons.mp among with rfl | later
          · obtain ⟨error, failed⟩ := failed
            rw [valued] at failed
            contradiction
          · obtain ⟨error, others⟩ := ih later
            exact ⟨error, by simp only [others]⟩

/-- A node that refers to nothing has no value. -/
theorem value_fails_of_not_refers {node : Expr} (missing : ¬ node.Refers evaluator.functions)
    : ∃ error, evaluator.value context node = .error error := by
  cases node with
  | var name => exact Context.resolve_of_unknown missing
  | call name args =>
      rw [Evaluator.value]
      cases valued : evaluator.values context args with
      | error error => exact ⟨error, rfl⟩
      | ok xs =>
          refine Registry.call_of_not_refers fun found => missing ?_
          rwa [length_values valued] at found
  | number | unary | binary | misplaced | foreign => exact absurd trivial missing

/-- Where a node without a value is reached, there is none, by induction on the way to that node. An
operand or argument before it may fail first.
-/
theorem value_fails_of_reaches {node e : Expr} (reaches : node.Reaches e)
    (failed : ∃ error, evaluator.value context node = .error error)
    : ∃ error, evaluator.value context e = .error error := by
  induction reaches with
  | here => exact failed
  | operand _ ih =>
      obtain ⟨error, inner⟩ := ih
      exact ⟨error, by rw [Evaluator.value, inner]⟩
  | left _ ih =>
      obtain ⟨error, inner⟩ := ih
      exact ⟨error, by rw [Evaluator.value, inner]⟩
  | @right op left right ordinary _ ih =>
      obtain ⟨error, inner⟩ := ih
      rw [Evaluator.value]
      cases evaluator.value context left with
      | error error => exact ⟨error, rfl⟩
      | ok x =>
          have undecided : op.shortcut? x = none := by cases op <;> first | rfl | contradiction
          exact ⟨error, by simp only [undecided, inner]⟩
  | argument among _ ih =>
      obtain ⟨error, inner⟩ := values_fail_of_mem among ih
      exact ⟨error, by rw [Evaluator.value, inner]⟩

end

/-- A formula all of whose variables and calls refer to something has a value in every context whose
parameter is in the range of the doubles. A formula with a variable or a call that does not, outside
the right operands of `&&` and `||`, has a value in none: in these contexts, it fails by a fault of
the formula, and in all others, it fails as well.
-/
theorem references_decide_evaluation {source : String} {formula : Compiled}
    (accepted : compile source = .ok formula) (tolerance : Float) (context : Context)
    : (context.Fits
        → (∀ node ∈ formula.tree.walk, node.Refers .default)
        → ∃ x, Evaluator.run ⟨.default, tolerance⟩ context formula.tree = .value x)
      ∧ ∀ node : Expr, node.Reaches formula.tree
        → ¬ node.Refers .default
        → ∃ error, Evaluator.run ⟨.default, tolerance⟩ context formula.tree = .failed error
            ∧ (context.Fits → error.IsOfFormula) := by
  have formed := wellFormed_of_compile accepted
  rw [run_of_value]
  constructor
  · intro fits refers
    obtain ⟨x, valued⟩ : ∃ x, Evaluator.value ⟨.default, tolerance⟩ context formula.tree = .ok x :=
      value_succeeds Registry.total_default fits.not_overflows formula.tree formed refers
    exact ⟨x, by rw [valued]; rfl⟩
  · intro node reaches missing
    obtain ⟨error, failed⟩
        : ∃ error, Evaluator.value ⟨.default, tolerance⟩ context formula.tree = .error error :=
      value_fails_of_reaches reaches (value_fails_of_not_refers missing)
    refine ⟨error, by rw [failed]; rfl, fun fits => ?_⟩
    rcases value_fails Registry.total_default formula.tree formed failed with fault | ⟨-, beyond⟩
    · exact fault
    · exact absurd beyond fits.not_overflows

/-- An unknown name to the right of `&&` does not count where the left operand decides, but a call
without arguments beside them does, and a formula of known names has a value for a parameter.
-/
theorem references_decide_evaluation_beside
    : let context := { Context.zero with q := some (-3) }
      let known := Expr.call "max" [.var "q", .unary .invert (.var "pi")]
      let unknown := Expr.binary .add (.binary .both (.var "x") (.var "speed")) (.call "max" [])
      context.Fits
      ∧ compile "max(q, !pi)" = .ok (.ofTree "max(q, !pi)" known)
      ∧ (∀ node ∈ known.walk, node.Refers .default)
      ∧ (∃ x, Evaluator.run .default context known = .value x)
      ∧ compile "(x && speed) + max()" = .ok (.ofTree "(x && speed) + max()" unknown)
      ∧ (Expr.call "max" []).Reaches unknown
      ∧ ¬ (Expr.call "max" []).Refers .default
      ∧ ∃ error, Evaluator.run .default context unknown = .failed error ∧ error.IsOfFormula := by
  intro context known unknown
  have fits : context.Fits := by
    intro q given
    obtain rfl : -3 = q := Option.some.inj given
    have large : (1 : ℚ) ≤ 2 ^ (970 : Int) := one_le_zpow₀ (by norm_num) (by norm_num)
    have larger : (2 : ℚ) ^ (1024 : Int) = 2 ^ (970 : Int) * 2 ^ (54 : Int) :=
      zpow_add₀ two_ne_zero 970 54
    rw [larger]
    generalize (2 : ℚ) ^ (970 : Int) = place at large
    norm_num
    linarith
  have accepted : compile "max(q, !pi)" = .ok (.ofTree "max(q, !pi)" known) := rfl
  have accepted' : compile "(x && speed) + max()" = .ok (.ofTree "(x && speed) + max()" unknown) :=
    rfl
  have refers : ∀ node ∈ known.walk, node.Refers .default := by decide +kernel
  have reaches : (Expr.call "max" []).Reaches unknown := .right rfl .here
  have missing : ¬ (Expr.call "max" []).Refers .default := by decide +kernel
  have value := (references_decide_evaluation accepted defaultTolerance context).1 fits refers
  obtain ⟨error, failed, fault⟩ :=
    (references_decide_evaluation accepted' defaultTolerance context).2 _ reaches missing
  exact ⟨fits, accepted, refers, value, accepted', reaches, missing, error, failed, fault fits⟩

end Wavetable.Formula
