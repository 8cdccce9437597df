import Wavetable.Formula.Compiled
import Wavetable.Proofs.Formula.Execution

/-!
What the value of an expression depends on. Only the variables that occur in it are looked up, so
contexts that agree on these give it the same value, or make it fail in the same way. A formula
that is applied to a single frame does not see the place of the frame.
-/

namespace Wavetable.Formula

namespace Expr

theorem walkAll_append (pending others : List Expr)
    : walkAll (pending ++ others) = walkAll pending ++ walkAll others := by
  induction pending using walkAll.induct with
  | case1 => simp [walkAll]
  | case2 e rest ih =>
      -- the parts of a node stand before all that was pending, on either side
      rw [List.cons_append, walkAll, walkAll, ← List.append_assoc, ih, List.cons_append]

theorem mem_walkAll_iff {node : Expr} {pending : List Expr}
    : node ∈ walkAll pending ↔ ∃ e ∈ pending, node ∈ e.walk := by
  induction pending with
  | nil => simp [walkAll]
  | cons e rest ih =>
      rw [← List.singleton_append, walkAll_append, List.mem_append, ih]
      simp only [List.singleton_append, List.mem_cons, exists_eq_or_imp, walk]

/-- The nodes of an expression are the expression itself and the nodes of its parts. -/
theorem mem_walk_iff {node e : Expr}
    : node ∈ e.walk ↔ node = e ∨ ∃ child ∈ e.children, node ∈ child.walk := by
  rw [walk, walkAll, List.mem_cons, List.append_nil, mem_walkAll_iff]

theorem mem_variableNames_iff {name : String} {e : Expr}
    : name ∈ e.variableNames ↔ .var name ∈ e.walk := by
  rw [variableNames, Text.mem_distinct, List.mem_filterMap]
  constructor
  · rintro ⟨node, member, named⟩
    cases node with
    | var other =>
        obtain rfl : other = name := by simpa [variableName?] using named
        exact member
    | number _ | unary _ _ | binary _ _ _ | call _ _ | misplaced _ _ _ | foreign _ _ _ =>
        contradiction
  · intro member
    exact ⟨_, member, rfl⟩

theorem mentions_iff {name : String} {e : Expr}
    : e.mentions name = true ↔ name ∈ e.variableNames := by
  rw [variableNames, Text.mem_distinct, List.mem_filterMap, mentions, List.any_eq_true]
  simp only [beq_iff_eq]

/-- The names in the parts of an expression are names in the whole. -/
theorem variableNames_subset {child e : Expr} (part : child ∈ e.children)
    : child.variableNames ⊆ e.variableNames := by
  intro name member
  rw [mem_variableNames_iff] at member ⊢
  exact mem_walk_iff.mpr (.inr ⟨child, part, member⟩)

end Expr

/-- Two contexts give the same to each of some names that is the name of one of their fields. -/
structure Context.Agree (names : List String) (left right : Context) : Prop where
  x : "x" ∈ names → left.x = right.x
  w : "w" ∈ names → left.w = right.w
  y : "y" ∈ names → left.y = right.y
  z : "z" ∈ names → left.z = right.z
  input : "in" ∈ names → left.input = right.input
  selected : "sel" ∈ names → left.selected = right.selected
  random : "rand" ∈ names → left.random = right.random
  q : "q" ∈ names → left.q = right.q

section
variable {names : List String} {left right : Context}

theorem Context.Agree.mono {others : List String} (agree : Context.Agree names left right)
    (fewer : others ⊆ names)
    : Context.Agree others left right where
  x member := agree.x (fewer member)
  w member := agree.w (fewer member)
  y member := agree.y (fewer member)
  z member := agree.z (fewer member)
  input member := agree.input (fewer member)
  selected member := agree.selected (fewer member)
  random member := agree.random (fewer member)
  q member := agree.q (fewer member)

/-- A name is looked up with the same result; the names of constants stand for no field. -/
theorem Context.Agree.resolve_eq (agree : Context.Agree names left right) {name : String}
    (member : name ∈ names)
    : left.resolve name = right.resolve name := by
  unfold Context.resolve
  split
  · rfl
  · rfl
  · rw [agree.x member]
  · rw [agree.w member]
  · rw [agree.y member]
  · rw [agree.z member]
  · rw [agree.input member]
  · rw [agree.selected member]
  · rw [agree.random member]
  · rw [agree.q member]
  · rfl

end

section
variable (evaluator : Evaluator) {left right : Context}

mutual

/-- Contexts that agree on the variables of an expression give it the same value or the same
failure, by induction on the expression.
-/
theorem value_eq_of_agree (e : Expr) (agree : Context.Agree e.variableNames left right)
    : evaluator.value left e = evaluator.value right e := by
  have part : ∀ child ∈ e.children, Context.Agree child.variableNames left right :=
    fun child member => agree.mono (Expr.variableNames_subset member)
  match e with
  | .number x => rfl
  | .var name =>
      rw [Evaluator.value, Evaluator.value]
      exact agree.resolve_eq (Expr.mem_variableNames_iff.mpr (Expr.mem_walk_iff.mpr (.inl rfl)))
  | .unary op operand =>
      have inner := value_eq_of_agree operand (part operand (by simp [Expr.children]))
      rw [Evaluator.value, Evaluator.value, inner]
  | .binary op first second =>
      have before := value_eq_of_agree first (part first (by simp [Expr.children]))
      have behind := value_eq_of_agree second (part second (by simp [Expr.children]))
      rw [Evaluator.value, Evaluator.value, before, behind]
  | .call name args =>
      rw [Evaluator.value, Evaluator.value, values_eq_of_agree args part]
  | .misplaced op first second =>
      have before := value_eq_of_agree first (part first (by simp [Expr.children]))
      have behind := value_eq_of_agree second (part second (by simp [Expr.children]))
      rw [Evaluator.value, Evaluator.value, before, behind]
  | .foreign kind label children => rw [Evaluator.value, Evaluator.value]

theorem values_eq_of_agree (args : List Expr)
    (agree : ∀ e ∈ args, Context.Agree e.variableNames left right)
    : evaluator.values left args = evaluator.values right args := by
  match args with
  | [] => rfl
  | e :: rest =>
      have first := value_eq_of_agree e (agree e List.mem_cons_self)
      have others := values_eq_of_agree rest fun e member =>
        agree e (List.mem_cons_of_mem _ member)
      rw [Evaluator.values, Evaluator.values, first, others]

end

/-- The machine ends with what the expression has for a value, as it has fuel for every node and
one step to find that no tasks are left.
-/
theorem run_of_value (context : Context) (e : Expr)
    : evaluator.run context e = .of (evaluator.value context e) := by
  obtain ⟨cost, small, run⟩ := leads_evaluate evaluator context e [] []
  have fuel : 3 * e.size + 1 = 3 * e.size - cost + 1 + cost := by omega
  rw [Evaluator.run, Machine.start, fuel, run]
  rfl

end

/-- The mode of a tree is that of a single frame exactly where neither name for the place of the
frame occurs.
-/
theorem mode_ofTree_iff {source : String} {tree : Expr}
    : (Compiled.ofTree source tree).mode = .singleFrame
      ↔ "y" ∉ tree.variableNames ∧ "z" ∉ tree.variableNames := by
  rw [← Expr.mentions_iff, ← Expr.mentions_iff]
  simp only [Compiled.mode, Compiled.usesFrame, Compiled.ofTree]
  cases tree.mentions "y" <;> cases tree.mentions "z" <;> simp [Mode.ofFlag]

theorem eq_ofTree_of_compile {source : String} {formula : Compiled}
    (accepted : compile source = .ok formula)
    : formula = .ofTree source formula.tree := by
  obtain ⟨tree, -, rfl⟩ := compile_eq_ok_iff.mp accepted
  rfl

/-- A formula for a single frame has no name for the place of the frame. -/
theorem not_mem_variableNames_of_mode {source : String} {formula : Compiled}
    (accepted : compile source = .ok formula) (single : formula.mode = .singleFrame)
    : "y" ∉ formula.tree.variableNames ∧ "z" ∉ formula.tree.variableNames := by
  rw [eq_ofTree_of_compile accepted] at single
  exact mode_ofTree_iff.mp single

/-- The value of an expression, the failure included, is the same in all contexts that agree on the
variables that occur in it, and so is the outcome of the machine that computes it. A formula that is
applied to a single frame therefore has the same value wherever the frame stands.
-/
theorem evaluation_depends_on_variables (evaluator : Evaluator)
    : (∀ left right e, Context.Agree e.variableNames left right
        → evaluator.value left e = evaluator.value right e
          ∧ evaluator.run left e = evaluator.run right e)
      ∧ ∀ source formula, compile source = .ok formula
        → formula.mode = .singleFrame
        → ∀ (context : Context) (y z : Float),
            evaluator.value { context with y := y, z := z } formula.tree
              = evaluator.value context formula.tree
            ∧ evaluator.run { context with y := y, z := z } formula.tree
              = evaluator.run context formula.tree := by
  have both : ∀ left right e, Context.Agree e.variableNames left right
      → evaluator.value left e = evaluator.value right e
        ∧ evaluator.run left e = evaluator.run right e := by
    intro left right e agree
    have same := value_eq_of_agree evaluator e agree
    exact ⟨same, by rw [run_of_value, run_of_value, same]⟩
  refine ⟨both, fun source formula accepted single context y z => both _ _ _ ?_⟩
  obtain ⟨noY, noZ⟩ := not_mem_variableNames_of_mode accepted single
  constructor
  case y => intro member; exact absurd member noY
  case z => intro member; exact absurd member noZ
  all_goals exact fun _ => rfl

/-- Whether or not the left operand decides, a formula of the sample alone sees neither the place of
the frame nor the parameter.
-/
theorem evaluation_depends_on_variables_input
    : let e := Expr.binary .either (.var "in") (.unary .invert (.var "in"))
      let far := { Context.zero with y := 1.0, z := 0.5, q := some 7 }
      Context.Agree e.variableNames far .zero
      ∧ Evaluator.default.run far e = Evaluator.default.run .zero e
      ∧ compile "in || !in" = .ok (.ofTree "in || !in" e)
      ∧ (Compiled.ofTree "in || !in" e).mode = .singleFrame
      ∧ Evaluator.default.value { Context.zero with y := 1.0, z := 0.5 } e
        = Evaluator.default.value .zero e := by
  intro e far
  have names : e.variableNames = ["in"] := by decide +kernel
  have agree : Context.Agree e.variableNames far .zero := by
    rw [names]
    constructor
    case input => exact fun _ => rfl
    all_goals intro member; simp at member
  have accepted : compile "in || !in" = .ok (.ofTree "in || !in" e) := rfl
  have single : (Compiled.ofTree "in || !in" e).mode = .singleFrame := by
    rw [mode_ofTree_iff, names]
    simp
  have general := evaluation_depends_on_variables Evaluator.default
  exact ⟨agree, (general.1 far .zero e agree).2, accepted, single,
    (general.2 _ _ accepted single .zero 1.0 0.5).1⟩

end Wavetable.Formula
