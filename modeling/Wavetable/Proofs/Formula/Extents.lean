import Wavetable.Proofs.Formula.Parsing

/-!
The extents of phrases. Where a derivation divides its tokens is determined by the tokens and the
tree: no phrase with the same tree ends elsewhere, and no operation is a single operand.
-/

namespace Wavetable.Formula

/-- A tree grows where climbing takes an operator, by induction on the fuel. -/
theorem climb_grows {rightOperand : Nat → List Token → Parsed} {least fuel : Nat} {left e : Expr}
    {tokens rest : List Token} (read : climb rightOperand least fuel left tokens = .ok (e, rest))
    : rest = tokens ∨ left.size < e.size := by
  suffices stays : (e = left ∧ rest = tokens) ∨ left.size < e.size from stays.imp_left And.right
  induction fuel generalizing left tokens with
  | zero =>
      obtain ⟨rfl, rfl⟩ : left = e ∧ tokens = rest := by simpa [climb] using read
      exact .inl ⟨rfl, rfl⟩
  | succ fuel ih =>
      unfold climb at read
      split at read
      next =>
        obtain ⟨rfl, rfl⟩ : left = e ∧ tokens = rest := by simpa using read
        exact .inl ⟨rfl, rfl⟩
      next op behind found =>
        split at read
        next =>
          obtain ⟨rfl, rfl⟩ : left = e ∧ tokens = rest := by simpa using read
          exact .inl ⟨rfl, rfl⟩
        next =>
          split at read
          next => contradiction
          next right behind' _ =>
            have larger : left.size < (Expr.binary op left right).size := by
              rw [Expr.size]
              omega
            rcases ih read with ⟨rfl, -⟩ | grown
            · exact .inr larger
            · exact .inr (larger.trans grown)

/-- What begins as something that ends a phrase ends it too. -/
theorem Closes.of_append {tier : Nat} {tokens more : List Token}
    (closes : Closes tier (tokens ++ more))
    : Closes tier tokens := by
  cases tokens with
  | nil => exact .nil tier
  | cons token rest =>
      refine ⟨closes.noCall, fun op rest' found => closes.attaches op (rest' ++ more) ?_⟩
      obtain ⟨_, same, written⟩ := nextBinary?_eq_some_iff.mp found
      obtain ⟨rfl, rfl⟩ := List.cons.inj same
      exact nextBinary?_of_writes written

/-- A phrase does not go on behind another one with the same tree. -/
theorem Phrase.nil_of_append {low high : Nat} {used more : List Token} {e : Expr}
    {depth depth' : Nat} (phrase : Phrase low used e depth)
    (longer : Phrase high (used ++ more) e depth') (closes : Closes low more)
    : more = [] := by
  have whole := (longer.loosen (Nat.zero_le high)).reads_all 0 (Nat.le_max_right depth depth')
  have part := phrase.reads 0 _ (Nat.le_max_left depth depth') (Nat.zero_le _) closes
  rcases climb_grows (part.symm.trans whole) with same | grown
  · exact same.symm
  · exact absurd grown (Nat.lt_irrefl _)

/-- Phrases with the same tree at the same place end at the same place. -/
theorem Phrase.extent_unique {low high : Nat} {used used' rest rest' : List Token} {e : Expr}
    {depth depth' : Nat} (phrase : Phrase low used e depth) (phrase' : Phrase high used' e depth')
    (closes : Closes low rest) (closes' : Closes high rest')
    (same : used ++ rest = used' ++ rest')
    : used = used' ∧ rest = rest' := by
  rcases List.append_eq_append_iff.mp same with ⟨more, rfl, rfl⟩ | ⟨more, rfl, rfl⟩
  · obtain rfl := phrase.nil_of_append phrase' closes.of_append
    exact ⟨(List.append_nil used).symm, rfl⟩
  · obtain rfl := phrase'.nil_of_append phrase closes'.of_append
    exact ⟨List.append_nil used', rfl⟩

/-- Tokens with an operator behind them begin with no parenthesis unless they do alone. -/
theorem noCall_append {tokens : List Token} {token : Token}
    (noCall : nextKind? tokens ≠ some .opening) (operator : token.kind = .operator)
    (rest : List Token)
    : nextKind? (tokens ++ token :: rest) ≠ some .opening := by
  cases tokens with
  | nil => simp [nextKind?, operator]
  | cons next others => exact noCall

/-- A phrase begins with an operand that is no larger than the phrase, by induction on the
derivation.
-/
theorem Phrase.lead {tier tokens e depth} (phrase : Phrase tier tokens e depth)
    : ∃ used behind first depth', tokens = used ++ behind ∧ Operand used first depth'
        ∧ nextKind? behind ≠ some .opening ∧ first.size ≤ e.size := by
  match phrase with
  | .tighter inner => exact inner.lead
  | .operand single =>
      exact ⟨tokens, [], e, depth, (List.append_nil tokens).symm, single, by simp [nextKind?],
        le_rfl⟩
  | .leftward _ _ written before _ | .rightward _ written before _ =>
      obtain ⟨used, behind, first, depth', rfl, operand, noCall, small⟩ := before.lead
      refine ⟨used, _, first, depth', List.append_assoc _ _ _, operand,
        noCall_append noCall written.1 _, ?_⟩
      rw [Expr.size]
      omega

/-- An operation is not a single operand, since its left operand begins with a smaller one. -/
theorem Operand.not_operation {tier : Nat} {op : BinaryOp} {token : Token}
    {first second : List Token} {left right : Expr} {depth depth' : Nat}
    (operand : Operand (first ++ token :: second) (.binary op left right) depth)
    (before : Phrase tier first left depth') (written : token.Writes op.symbol)
    : False := by
  obtain ⟨used, behind, lead, depth'', rfl, leads, noCall, small⟩ := before.lead
  have whole : (level 0 (max depth depth'')).primary (used ++ behind ++ token :: second ++ [])
      = .ok (.binary op left right, []) :=
    operand.reads 0 _ (Nat.le_max_left _ _) (by simp [nextKind?])
  have part := leads.reads 0 _ (Nat.le_max_right depth depth'')
    (noCall_append noCall written.1 second)
  rw [List.append_nil, List.append_assoc, part] at whole
  obtain ⟨rfl, -⟩ := Prod.mk.inj (Except.ok.inj whole)
  rw [Expr.size] at small
  omega

end Wavetable.Formula
