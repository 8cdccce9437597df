import Wavetable.Formula.Compiled
import Wavetable.Formula.Printer
import Wavetable.Proofs.Formula.Parsing
import Wavetable.Proofs.Formula.Rendering

/-!
Printing and parsing. The text of a well-formed expression parses back to that expression, unless
its parentheses nest too deep, and parsing yields well-formed expressions only.
-/

namespace Wavetable.Formula

/-- The numbers of formulas are amounts. -/
theorem IsLiteral.isAmount {value : Float} (literal : IsLiteral value) : IsAmount value := by
  obtain ⟨finite, cs, rfl⟩ := literal
  exact ⟨finite, (Number.isUnsigned_iff finite).mp (Number.isUnsigned_ofDecimal _ _ _)⟩

mutual

/-- What is derived from lexical tokens is well-formed, by induction on the derivation. -/
theorem Phrase.wellFormed {tier tokens e depth} (phrase : Phrase tier tokens e depth)
    (lexical : ∀ token ∈ tokens, token.Lexical)
    : e.WellFormed := by
  match phrase with
  | .operand single => exact single.wellFormed lexical
  | .tighter inner => exact inner.wellFormed lexical
  | .leftward _ _ _ before behind | .rightward _ _ before behind =>
      rw [List.forall_mem_append, List.forall_mem_cons] at lexical
      exact ⟨before.wellFormed lexical.1, behind.wellFormed lexical.2.2⟩

theorem Operand.wellFormed {tokens e depth} (operand : Operand tokens e depth)
    (lexical : ∀ token ∈ tokens, token.Lexical)
    : e.WellFormed := by
  match operand with
  | .number kind =>
      have literal := lexical _ List.mem_cons_self
      rw [Token.Lexical, kind] at literal
      exact literal.isAmount
  | .name kind =>
      have named := lexical _ List.mem_cons_self
      rwa [Token.Lexical, kind] at named
  | .emptyCall kind _ _ =>
      have named := lexical _ List.mem_cons_self
      rw [Token.Lexical, kind] at named
      exact ⟨named, trivial⟩
  | .call kind _ _ inner =>
      rw [List.forall_mem_cons, List.forall_mem_cons, List.forall_mem_append] at lexical
      have named := lexical.1
      rw [Token.Lexical, kind] at named
      exact ⟨named, inner.wellFormed lexical.2.2.1⟩
  | .group _ _ inner =>
      rw [List.forall_mem_cons, List.forall_mem_append] at lexical
      exact inner.wellFormed lexical.2.1
  | .sign _ _ inner =>
      rw [List.forall_mem_cons] at lexical
      exact inner.wellFormed lexical.2

theorem Arguments.wellFormed {tokens args depth} (listed : Arguments tokens args depth)
    (lexical : ∀ token ∈ tokens, token.Lexical)
    : Expr.AllWellFormed args := by
  match listed with
  | .last inner => exact ⟨inner.wellFormed lexical, trivial⟩
  | .more inner _ rest =>
      rw [List.forall_mem_append, List.forall_mem_cons] at lexical
      exact ⟨inner.wellFormed lexical.1, rest.wellFormed lexical.2.2⟩

end

/-- The parser yields well-formed expressions only. -/
theorem wellFormed_of_parseSource {source : String} {e : Expr}
    (accepted : parseSource source = .ok e)
    : e.WellFormed := by
  obtain ⟨tokens, scanned, parsed⟩ := parseSource_eq_ok_iff.mp accepted
  obtain ⟨levels, ⟨depth, phrase, -⟩, -⟩ :=
    derives_of_parse (ne_ending_of_tokenize scanned) parsed
  exact phrase.wellFormed (tokenize_lexical scanned)

/-- The tree of a formula that was read is one that a formula can write. -/
theorem wellFormed_of_compile {source : String} {formula : Compiled}
    (accepted : compile source = .ok formula)
    : formula.tree.WellFormed := by
  obtain ⟨tree, parsed, rfl⟩ := compile_eq_ok_iff.mp accepted
  exact wellFormed_of_parseSource parsed

/-- The text of a well-formed expression is scanned to tokens that derive the expression. -/
theorem derives_render {e : Expr} (formed : e.WellFormed)
    : ∃ tokens,
        tokenize (String.ofList e.render) = .ok tokens ∧ Derives tokens e (e.nesting + 1) := by
  -- nothing stands behind the whole text
  have ended : Separated [] := by
    intro c head
    contradiction
  obtain ⟨tokens, scans, operand, -⟩ := e.writes formed 0 ended
  refine ⟨tokens, ?_, e.nesting, operand.phrase (Nat.zero_le 7), rfl⟩
  unfold Scans at scans
  rw [List.append_nil] at scans
  rw [tokenize, String.toList_ofList]
  change scanAt 0 e.render = .ok tokens
  rw [scans]
  simp [scanAt, scanFrom, Except.map]

/-- A well-formed expression is printed, and its text parses to exactly that expression or is
refused as too deeply nested; it parses where the expression is at most a hundred nodes high. Every
expression that the parser yields is well-formed.
-/
theorem parseSource_source
    : (∀ e : Expr, e.WellFormed
        → ∃ text, e.source = .ok text
          ∧ (parseSource text = .ok e
            ∨ ∃ position, parseSource text = .error ⟨.tooDeep, position⟩)
          ∧ (e.height ≤ 100 → parseSource text = .ok e))
      ∧ ∀ source e, parseSource source = .ok e → e.WellFormed := by
  refine ⟨?_, fun source e => wellFormed_of_parseSource⟩
  intro e formed
  obtain ⟨tokens, scanned, derived⟩ := derives_render formed
  have parsed : parseSource (String.ofList e.render) = parse tokens := by
    rw [parseSource, scanned]
  refine ⟨_, e.source_eq formed, ?_, ?_⟩
  · rw [parsed]
    rcases Nat.lt_or_ge maxNesting (e.nesting + 1) with beyond | fits
    · exact .inr (derived.parse_tooDeep beyond)
    · exact .inl (derived.parse_ok fits)
  · intro low
    rw [parsed]
    refine derived.parse_ok ?_
    have levels := e.nesting_le
    change e.nesting + 1 ≤ 200
    omega

/-- A sign before a call with a fraction comes back through its text. -/
theorem parseSource_source_signed_call
    : ∃ text,
        (Expr.unary .keep (.call "max" [.var "x", .number 1.5])).source = .ok text
        ∧ parseSource text = .ok (.unary .keep (.call "max" [.var "x", .number 1.5]))
        ∧ (Expr.unary .keep (.call "max" [.var "x", .number 1.5])).WellFormed := by
  have amount : IsAmount 1.5 := ⟨by decide +kernel, by decide +kernel, by decide +kernel⟩
  have called : IsName "max".toList :=
    ⟨'m', ['a', 'x'], rfl, rfl, by simp [isNameChar, isNameStart]⟩
  have named : IsName "x".toList := ⟨'x', [], rfl, rfl, List.forall_mem_nil _⟩
  have formed : (Expr.unary .keep (.call "max" [.var "x", .number 1.5])).WellFormed :=
    ⟨called, named, amount, trivial⟩
  obtain ⟨text, printed, -, parsed⟩ := parseSource_source.1 _ formed
  have low : (Expr.unary .keep (.call "max" [.var "x", .number 1.5])).height ≤ 100 := by
    decide +kernel
  exact ⟨text, printed, parsed low, parseSource_source.2 _ _ (parsed low)⟩

end Wavetable.Formula
