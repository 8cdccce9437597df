import Wavetable.Proofs.Formula.RoundTrip
import Wavetable.Proofs.Formula.Trimming

/-!
Formulas put together as texts. Two sources in parentheses with an operator between them make the
source of the operation on their formulas, unless the parentheses nest too deep.
-/

namespace Wavetable.Formula

/-- Two sources in parentheses, with an operator between them. -/
def joined (op : BinaryOp) (left right : String) : String :=
  "(" ++ left ++ ") " ++ op.symbol ++ " (" ++ right ++ ")"

theorem toList_joined (op : BinaryOp) (left right : String)
    : (joined op left right).toList
      = ('(' :: (left.toList ++ [')']))
        ++ ' ' :: (op.symbol.toList ++ ' ' :: ('(' :: (right.toList ++ [')']))) := by
  simp [joined]

-----------------------------------------------------------------------------------------
-- A text in front of a closing parenthesis
-----------------------------------------------------------------------------------------

/-- A run ends where a text behind it begins with another character, also if it ends before. -/
theorem runLength_append_of_ends {inside : Char → Bool} {tail : List Char}
    (ends : Ends inside tail) (cs : List Char)
    : runLength inside (cs ++ tail) = runLength inside cs := by
  induction cs with
  | nil => exact runLength_append (List.forall_mem_nil _) ends
  | cons first rest ih =>
      unfold runLength at ih ⊢
      rw [List.cons_append, List.takeWhile_cons, List.takeWhile_cons]
      split
      next => rw [List.length_cons, List.length_cons, ih]
      next => rfl

theorem ends_closing {inside : Char → Bool} (other : inside ')' = false) (tail : List Char)
    : Ends inside (')' :: tail) := by
  intro c head
  obtain rfl := Option.some.inj head
  exact other

/-- No operator has a parenthesis for its second character. -/
theorem operatorLength_append_closing (first : Char) (rest tail : List Char)
    : operatorLength first (rest ++ ')' :: tail) = operatorLength first rest := by
  cases rest with
  | cons second others => rfl
  | nil =>
      have pair : isOperatorPair first ')' = false := by
        rw [isOperatorPair, ← Bool.not_eq_true, List.contains_iff_mem]
        simp
      simp [operatorLength, pair]

theorem lexemeAt?_append_closing (first : Char) (rest tail : List Char)
    : lexemeAt? first (rest ++ ')' :: tail) = lexemeAt? first rest := by
  unfold lexemeAt?
  rw [runLength_append_of_ends (ends_closing rfl tail),
    runLength_append_of_ends (ends_closing rfl tail),
    runLength_append_of_ends (ends_closing rfl tail), operatorLength_append_closing]

/-- A text is scanned alike in front of a closing parenthesis, by induction on its length. -/
theorem scans_of_scanAt {start : Nat} {cs : List Char} {tokens : List Token}
    (scanned : scanAt start cs = .ok tokens) (tail : List Char)
    : Scans start cs (')' :: tail) tokens := by
  induction size : cs.length using Nat.strong_induction_on generalizing start cs tokens with
  | _ size ih =>
    subst size
    cases cs with
    | nil =>
        obtain rfl : [] = tokens := Except.ok.inj scanned
        exact Scans.nil start _
    | cons first rest =>
        have same := lexemeAt?_append_closing first rest tail
        cases found : lexemeAt? first rest with
        | none =>
            rw [scanAt_of_none _ found] at scanned
            contradiction
        | some lexeme =>
            have taken := lexemeAt?_length_pos found
            have short := (longestLexeme_of_lexemeAt? found).2
            have shorter : ((first :: rest).drop lexeme.length).length
                < (first :: rest).length := by
              rw [List.length_drop, List.length_cons]
              omega
            have length : start + lexeme.length + ((first :: rest).drop lexeme.length).length
                = start + (first :: rest).length := by
              rw [List.length_drop]
              omega
            rw [scanAt_of_lexeme _ found] at scanned
            unfold Scans
            rw [List.cons_append, scanAt_of_lexeme _ (same.trans found), ← List.cons_append,
              List.take_append_of_le_length short, List.drop_append_of_le_length short]
            cases read : tokenOf lexeme.kind start ((first :: rest).take lexeme.length) with
            | error =>
                rw [read] at scanned
                contradiction
            | ok token? =>
                cases behind : scanAt (start + lexeme.length)
                    ((first :: rest).drop lexeme.length) with
                | error =>
                    rw [read, behind] at scanned
                    contradiction
                | ok others =>
                    rw [read, behind] at scanned
                    obtain rfl : token?.toList ++ others = tokens := Except.ok.inj scanned
                    have later := ih _ shorter behind rfl
                    unfold Scans at later
                    rw [length] at later
                    rw [later]
                    cases scanAt (start + (first :: rest).length) (')' :: tail) with
                    | error => rfl
                    | ok more => simp [Except.bind, Except.map]

-----------------------------------------------------------------------------------------
-- Sources put together
-----------------------------------------------------------------------------------------

/-- Wherever a source is scanned from, its tokens derive its formula. -/
theorem exists_phrase_at {source : String} {e : Expr} (read : parseSource source = .ok e)
    (start : Nat)
    : ∃ tokens depth, scanAt start source.toList = .ok tokens ∧ Phrase 0 tokens e depth := by
  obtain ⟨tokens, scanned, parsed⟩ := parseSource_eq_ok_iff.mp read
  have later := scanAt_later 0 start source.toList
  change scanAt 0 source.toList = .ok tokens at scanned
  rw [scanned, Nat.zero_add] at later
  have lexical := scanFrom_lexical later
  have noEnd : ∀ token ∈ tokens.map (·.movedBy start), token.kind ≠ .ending := by
    intro token member ends
    simpa [Token.Lexical, ends] using lexical token member
  rcases (sameButLayout_movedBy tokens start).parse_agrees with
    ⟨e', moved, still⟩ | ⟨cause, position, position', -, refused, -⟩
  · obtain rfl : e' = e := Except.ok.inj (still.symm.trans parsed)
    obtain ⟨levels, ⟨depth, phrase, -⟩, -⟩ := derives_of_parse noEnd moved
    exact ⟨_, depth, later, phrase⟩
  · cases refused.symm.trans parsed

/-- A source in parentheses is scanned to an operand with its formula. -/
theorem exists_group_at {source : String} {e : Expr} (read : parseSource source = .ok e)
    (start : Nat) (tail : List Char)
    : ∃ tokens depth,
        Scans start ('(' :: (source.toList ++ [')'])) tail tokens
        ∧ Operand tokens e (depth + 1) := by
  obtain ⟨tokens, depth, scanned, phrase⟩ := exists_phrase_at read (start + 1)
  exact ⟨_, depth, (scans_of_scanAt scanned tail).group, .group rfl rfl phrase⟩

section
variable {left right : String} {e e' : Expr}

/-- The tokens of two sources that are put together derive the operation. -/
theorem derives_joined (op : BinaryOp) (read : parseSource left = .ok e)
    (read' : parseSource right = .ok e')
    : ∃ tokens levels,
        tokenize (joined op left right) = .ok tokens
        ∧ Derives tokens (.binary op e e') levels := by
  obtain ⟨first, depth, scans, operand⟩ := exists_group_at read 0
    (' ' :: (op.symbol.toList ++ ' ' :: ('(' :: (right.toList ++ [')']))) ++ [])
  obtain ⟨second, depth', scans', operand'⟩ := exists_group_at read'
    (0 + ('(' :: (left.toList ++ [')'])).length + 1 + op.symbol.toList.length + 1) []
  have notBlank : Ends Text.isBlank ('(' :: (right.toList ++ [')']) ++ []) := by
    intro c head
    obtain rfl := Option.some.inj head
    decide
  have whole := scans.joined op scans' notBlank
  have named : Token.Writes
      ⟨.operator, op.symbol, 0 + ('(' :: (left.toList ++ [')'])).length + 1, op.symbol⟩
      op.symbol :=
    ⟨rfl, rfl⟩
  have phrase := Phrase.binary named (operand.phrase op.leftTier_le)
    (operand'.phrase op.rightTier_le)
  refine ⟨_, _, ?_, _, phrase.loosen (Nat.zero_le _), rfl⟩
  unfold Scans at whole
  rw [List.append_nil, ← toList_joined] at whole
  change scanAt 0 (joined op left right).toList = _
  rw [whole]
  simp [scanAt, scanFrom, Except.map]

/-- Sources that are put together are read as the operation on their formulas, or refused since
they nest too deep.
-/
theorem parseSource_joined (op : BinaryOp) (read : parseSource left = .ok e)
    (read' : parseSource right = .ok e')
    : parseSource (joined op left right) = .ok (.binary op e e')
      ∨ TooDeep (parseSource (joined op left right)) := by
  obtain ⟨tokens, levels, scanned, derived⟩ := derives_joined op read read'
  unfold parseSource
  rw [scanned]
  rcases Nat.lt_or_ge maxNesting levels with beyond | fits
  · exact .inr (derived.parse_tooDeep beyond)
  · exact .inl (derived.parse_ok fits)

end

end Wavetable.Formula
