import Wavetable.Proofs.Formula.Dependence
import Wavetable.Proofs.Formula.Parsing

/-!
Names in the source of a formula and in its tree. From left to right, the names that no opening
parenthesis follows are the variables of the tree, and the others are the functions that it calls.
-/

namespace Wavetable.Formula

-----------------------------------------------------------------------------------------
-- Names of tokens
-----------------------------------------------------------------------------------------

/-- A name stands somewhere in a token list, as that of a function if an opening parenthesis follows
it at once, and as that of a variable if none does.
-/
def NamedIn (tokens : List Token) (called : Bool) (name : String) : Prop :=
  ∃ before token behind,
    tokens = before ++ token :: behind
    ∧ token.kind = .name
    ∧ token.word = name
    ∧ (nextKind? behind = some .opening ↔ called = true)

/-- The names that stand as functions, or those that stand as variables, from left to right. -/
def namesIn (called : Bool) : List Token → List String
  | [] => []
  | token :: rest =>
      if token.kind = .name ∧ (nextKind? rest = some .opening ↔ called = true) then
        token.word :: namesIn called rest
      else namesIn called rest

theorem mem_namesIn_iff {called : Bool} {tokens : List Token} {name : String}
    : name ∈ namesIn called tokens ↔ NamedIn tokens called name := by
  induction tokens with
  | nil => simp [namesIn, NamedIn]
  | cons first rest ih =>
      have split : NamedIn (first :: rest) called name
          ↔ (first.kind = .name ∧ first.word = name
              ∧ (nextKind? rest = some .opening ↔ called = true))
            ∨ NamedIn rest called name := by
        constructor
        · rintro ⟨before, token, behind, parts, named⟩
          cases before with
          | nil =>
              obtain ⟨rfl, rfl⟩ := List.cons.inj parts
              exact .inl named
          | cons _ before => exact .inr ⟨before, token, behind, (List.cons.inj parts).2, named⟩
        · rintro (named | ⟨before, token, behind, rfl, named⟩)
          · exact ⟨[], first, rest, rfl, named⟩
          · exact ⟨first :: before, token, behind, rfl, named⟩
      rw [split, ← ih, namesIn]
      split_ifs with here
      · simp [here, eq_comm]
      · constructor
        · exact .inr
        · rintro (⟨named, -, follows⟩ | later)
          · exact absurd ⟨named, follows⟩ here
          · exact later

section
variable {called : Bool} {token : Token} {behind : List Token}

theorem namesIn_other (other : token.kind ≠ .name)
    : namesIn called (token :: behind) = namesIn called behind :=
  if_neg fun named => other named.1

/-- A name that no opening parenthesis follows stands as a variable. -/
theorem namesIn_variable (named : token.kind = .name) (apart : nextKind? behind ≠ some .opening)
    : namesIn called (token :: behind)
      = (if called then [] else [token.word]) ++ namesIn called behind := by
  cases called <;> simp [namesIn, named, apart]

/-- A name that an opening parenthesis follows stands as a function. -/
theorem namesIn_function {opening : Token} (named : token.kind = .name)
    (opens : opening.kind = .opening)
    : namesIn called (token :: opening :: behind)
      = (if called then [token.word] else []) ++ namesIn called behind := by
  have other : opening.kind ≠ .name := by simp [opens]
  cases called <;> simp [namesIn, named, opens, nextKind?]

end

-----------------------------------------------------------------------------------------
-- Names of nodes
-----------------------------------------------------------------------------------------

namespace Expr

/-- The name of the function that a node calls, or that of a variable. -/
def nameOf? (called : Bool) (node : Expr) : Option String :=
  if called then node.functionName? else node.variableName?

/-- The names of the nodes of some expressions, from left to right. -/
def namesOf (called : Bool) (expressions : List Expr) : List String :=
  (walkAll expressions).filterMap (nameOf? called)

theorem namesOf_nil (called : Bool) : namesOf called [] = [] := by
  rw [namesOf, walkAll, List.filterMap_nil]

theorem namesOf_append (called : Bool) (left right : List Expr)
    : namesOf called (left ++ right) = namesOf called left ++ namesOf called right := by
  rw [namesOf, walkAll_append, List.filterMap_append, namesOf, namesOf]

theorem namesOf_cons (called : Bool) (e : Expr) (rest : List Expr)
    : namesOf called (e :: rest) = namesOf called [e] ++ namesOf called rest := by
  rw [← List.singleton_append, namesOf_append]

/-- The name of a node stands in front of those of its parts. -/
theorem namesOf_node (called : Bool) (e : Expr)
    : namesOf called [e] = (e.nameOf? called).toList ++ namesOf called e.children := by
  rw [namesOf, walkAll, List.append_nil, List.filterMap_cons, namesOf]
  cases e.nameOf? called <;> rfl

theorem namesOf_var (called : Bool) (name : String)
    : namesOf called [.var name] = if called then [] else [name] := by
  cases called <;> simp [namesOf, walkAll, children, nameOf?, functionName?, variableName?]

theorem namesOf_call (called : Bool) (name : String) (args : List Expr)
    : namesOf called [.call name args]
      = (if called then [name] else []) ++ namesOf called args := by
  rw [namesOf_node]
  cases called <;> rfl

/-- A node that is neither a variable nor a call has no name. -/
theorem namesOf_unnamed {e : Expr} (called : Bool) (noVariable : e.variableName? = none)
    (noCall : e.functionName? = none)
    : namesOf called [e] = namesOf called e.children := by
  rw [namesOf_node, nameOf?, noVariable, noCall, ite_self, Option.toList_none, List.nil_append]

theorem namesOf_number (called : Bool) (value : Float)
    : namesOf called [.number value] = [] := by
  rw [namesOf_unnamed called rfl rfl, children, namesOf_nil]

theorem namesOf_unary (called : Bool) (op : UnaryOp) (operand : Expr)
    : namesOf called [.unary op operand] = namesOf called [operand] := by
  rw [namesOf_unnamed called rfl rfl, children]

theorem namesOf_binary (called : Bool) (op : BinaryOp) (left right : Expr)
    : namesOf called [.binary op left right] = namesOf called [left] ++ namesOf called [right] := by
  rw [namesOf_unnamed called rfl rfl, children, namesOf_cons]

theorem mem_variableNames_iff_namesOf {name : String} {e : Expr}
    : name ∈ e.variableNames ↔ name ∈ namesOf false [e] := by
  rw [variableNames, Text.mem_distinct]
  rfl

theorem mem_functionNames_iff_namesOf {name : String} {e : Expr}
    : name ∈ e.functionNames ↔ name ∈ namesOf true [e] := by
  rw [functionNames, Text.mem_distinct]
  rfl

end Expr

-----------------------------------------------------------------------------------------
-- Names of what is derived
-----------------------------------------------------------------------------------------

section
variable {called : Bool}

open Wavetable.Formula.Expr (namesOf)

theorem nextKind?_ne_opening {token : Token} {rest : List Token} (other : token.kind ≠ .opening)
    : nextKind? (token :: rest) ≠ some .opening :=
  fun same => other (Option.some.inj same)

mutual

/-- A phrase has the names of its tree, if no opening parenthesis follows it, by induction on its
derivation. What follows a part of it is an operator, a comma or a closing parenthesis, so a name at
the end of that part is a variable in both.
-/
theorem Phrase.namesIn_eq {tier tokens e depth} (phrase : Phrase tier tokens e depth)
    {behind : List Token} (apart : nextKind? behind ≠ some .opening)
    : namesIn called (tokens ++ behind) = namesOf called [e] ++ namesIn called behind := by
  match phrase with
  | .operand single => exact single.namesIn_eq apart
  | .tighter inner => exact inner.namesIn_eq apart
  | .leftward _ _ written first second | .rightward _ written first second =>
      rw [List.append_assoc, List.cons_append,
        first.namesIn_eq (nextKind?_ne_opening (by simp [written.1])),
        namesIn_other (by simp [written.1]), second.namesIn_eq apart, Expr.namesOf_binary,
        List.append_assoc]

theorem Operand.namesIn_eq {tokens e depth} (operand : Operand tokens e depth)
    {behind : List Token} (apart : nextKind? behind ≠ some .opening)
    : namesIn called (tokens ++ behind) = namesOf called [e] ++ namesIn called behind := by
  match operand with
  | .number kind =>
      rw [List.singleton_append, namesIn_other (by simp [kind]), Expr.namesOf_number,
        List.nil_append]
  | .name kind => rw [List.singleton_append, namesIn_variable kind apart, Expr.namesOf_var]
  | .emptyCall kind opens closes =>
      rw [List.cons_append, List.cons_append, List.singleton_append, namesIn_function kind opens,
        namesIn_other (by simp [closes]), Expr.namesOf_call, Expr.namesOf_nil, List.append_nil]
  | .call kind opens closes inner =>
      rw [List.cons_append, List.cons_append, List.append_assoc, List.singleton_append,
        namesIn_function kind opens, inner.namesIn_eq (nextKind?_ne_opening (by simp [closes])),
        namesIn_other (by simp [closes]), Expr.namesOf_call, List.append_assoc]
  | .group opens closes inner =>
      rw [List.cons_append, List.append_assoc, List.singleton_append,
        namesIn_other (by simp [opens]),
        inner.namesIn_eq (nextKind?_ne_opening (by simp [closes])),
        namesIn_other (by simp [closes])]
  | .sign written _ inner =>
      rw [List.cons_append, namesIn_other (by simp [written.1]), inner.namesIn_eq apart,
        Expr.namesOf_unary]

theorem Arguments.namesIn_eq {tokens args depth} (listed : Arguments tokens args depth)
    {behind : List Token} (apart : nextKind? behind ≠ some .opening)
    : namesIn called (tokens ++ behind) = namesOf called args ++ namesIn called behind := by
  match listed with
  | .last inner => exact inner.namesIn_eq apart
  | .more inner separates rest =>
      rw [List.append_assoc, List.cons_append,
        inner.namesIn_eq (nextKind?_ne_opening (by simp [separates])),
        namesIn_other (by simp [separates]), rest.namesIn_eq apart, ← List.append_assoc,
        ← Expr.namesOf_cons]

end

end

/-- From left to right, the names of the tokens are those of the nodes of the tree. -/
theorem Derives.namesIn_eq {tokens : List Token} {e : Expr} {levels : Nat}
    (derived : Derives tokens e levels) (called : Bool)
    : namesIn called tokens = Expr.namesOf called [e] := by
  obtain ⟨depth, phrase, -⟩ := derived
  have apart : nextKind? [] ≠ some .opening := by simp [nextKind?]
  have names : namesIn called (tokens ++ []) = Expr.namesOf called [e] ++ namesIn called [] :=
    phrase.namesIn_eq apart
  rwa [List.append_nil, namesIn, List.append_nil] at names

-----------------------------------------------------------------------------------------
-- Names of formulas
-----------------------------------------------------------------------------------------

/-- A formula that is accepted is derived from the tokens of its source. -/
theorem derives_of_compile {source : String} {formula : Compiled}
    (accepted : compile source = .ok formula)
    : ∃ tokens levels, tokenize source = .ok tokens ∧ Derives tokens formula.tree levels := by
  obtain ⟨tree, parsed, rfl⟩ := compile_eq_ok_iff.mp accepted
  obtain ⟨tokens, scanned, parsed⟩ := parseSource_eq_ok_iff.mp parsed
  obtain ⟨levels, derived, -⟩ := derives_of_parse (ne_ending_of_tokenize scanned) parsed
  exact ⟨tokens, levels, scanned, derived⟩

/-- The variables of a formula are the names in its source that no opening parenthesis follows at
once, and its functions are the names that one follows. Each name of the source is that of one node,
and these stand in the same order. So a formula is applied to all frames of a table exactly if `y`
or `z` stands somewhere without an opening parenthesis behind it.
-/
theorem names_of_source {source : String} {formula : Compiled}
    (accepted : compile source = .ok formula)
    : ∃ tokens, tokenize source = .ok tokens
        ∧ (∀ name, name ∈ formula.tree.variableNames ↔ NamedIn tokens false name)
        ∧ (∀ name, name ∈ formula.tree.functionNames ↔ NamedIn tokens true name)
        ∧ formula.tree.walk.filterMap Expr.variableName? = namesIn false tokens
        ∧ formula.tree.walk.filterMap Expr.functionName? = namesIn true tokens
        ∧ (formula.usesY = true ↔ NamedIn tokens false "y")
        ∧ (formula.usesZ = true ↔ NamedIn tokens false "z")
        ∧ (formula.mode = .multiFrame ↔ NamedIn tokens false "y" ∨ NamedIn tokens false "z") := by
  obtain ⟨tokens, levels, scanned, derived⟩ := derives_of_compile accepted
  have alone : ∀ name, name ∈ formula.tree.variableNames ↔ NamedIn tokens false name := by
    intro name
    rw [Expr.mem_variableNames_iff_namesOf, ← derived.namesIn_eq, mem_namesIn_iff]
  have called : ∀ name, name ∈ formula.tree.functionNames ↔ NamedIn tokens true name := by
    intro name
    rw [Expr.mem_functionNames_iff_namesOf, ← derived.namesIn_eq, mem_namesIn_iff]
  have usesY : formula.usesY = true ↔ NamedIn tokens false "y" := by
    rw [eq_ofTree_of_compile accepted, Compiled.ofTree, Expr.mentions_iff, alone]
  have usesZ : formula.usesZ = true ↔ NamedIn tokens false "z" := by
    rw [eq_ofTree_of_compile accepted, Compiled.ofTree, Expr.mentions_iff, alone]
  have mode : formula.mode = .multiFrame ↔ formula.usesY = true ∨ formula.usesZ = true := by
    rw [← Bool.or_eq_true, ← Compiled.usesFrame, Compiled.mode]
    cases formula.usesFrame <;> simp [Mode.ofFlag]
  exact ⟨tokens, scanned, alone, called, (derived.namesIn_eq false).symm,
    (derived.namesIn_eq true).symm, usesY, usesZ, mode.trans (or_congr usesY usesZ)⟩

/-- A call of a function with the name of a frame variable does not stand for that variable, while a
variable counts inside the arguments of a call.
-/
theorem names_of_source_call
    : let tree := Expr.binary .add (.call "y" [.number 1.0])
        (.unary .negate (.call "max" [.var "z", .number 2.0]))
      compile "y(1) + -max(z, 2)" = .ok (.ofTree "y(1) + -max(z, 2)" tree)
      ∧ ∃ tokens, tokenize "y(1) + -max(z, 2)" = .ok tokens
          ∧ NamedIn tokens true "y"
          ∧ ¬ NamedIn tokens false "y"
          ∧ NamedIn tokens false "z"
          ∧ (Compiled.ofTree "y(1) + -max(z, 2)" tree).mode = .multiFrame := by
  intro tree
  have accepted : compile "y(1) + -max(z, 2)" = .ok (.ofTree "y(1) + -max(z, 2)" tree) := rfl
  obtain ⟨tokens, scanned, alone, called, -, -, -, -, mode⟩ := names_of_source accepted
  have names : tree.variableNames = ["z"] := by decide +kernel
  have calls : tree.functionNames = ["max", "y"] := by decide +kernel
  have inside : NamedIn tokens false "z" := by
    rw [← alone, Compiled.ofTree, names]
    exact List.mem_singleton.mpr rfl
  refine ⟨accepted, tokens, scanned, ?_, ?_, inside, mode.mpr (.inr inside)⟩
  · rw [← called, Compiled.ofTree, calls]
    decide
  · rw [← alone, Compiled.ofTree, names]
    decide

end Wavetable.Formula
