import Wavetable.Proofs.Formula.Soundness

/-!
Layout. The parser does not see where tokens stand, except that a plus sign is one before an
operand where it touches the next token. Two token lists that say the same and agree there are
read to the same tree, or refused for the same cause at the same token.
-/

namespace Wavetable.Formula

/-- What a token says wherever it stands: its class, with the value of a number, and the word that
any other token is.
-/
def Token.meaning (token : Token) : TokenKind × Option String :=
  match token.kind with
  | .number value => (.number value, none)
  | kind => (kind, some token.word)

/-- Two token lists that differ in their layout alone: they say the same, and a plus sign touches
the token behind it in both of them or in neither.
-/
structure SameButLayout (tokens tokens' : List Token) : Prop where
  meanings : tokens.map (·.meaning) = tokens'.map (·.meaning)
  signs
    : ∀ (i : Nat) (sign next sign' next' : Token),
        tokens[i]? = some sign
        → tokens[i + 1]? = some next
        → tokens'[i]? = some sign'
        → tokens'[i + 1]? = some next'
        → sign.Writes "+"
        → (next.start = sign.finish ↔ next'.start = sign'.finish)

/-- Two offsets mark the same place in two token lists: the tokens of one number begin there, or
both lists end.
-/
inductive SamePlace (tokens tokens' : List Token) : Nat → Nat → Prop
  | token {i : Nat} {token token' : Token} (here : tokens[i]? = some token)
    (here' : tokens'[i]? = some token')
    : SamePlace tokens tokens' token.start token'.start
  | ending : SamePlace tokens tokens' (endOf tokens) (endOf tokens')

/-- Two results on two token lists agree: they are the same with as many tokens left, or they are
refusals for the same cause at the same place.
-/
def Agree {α : Type} (tokens tokens' : List Token)
    (result result' : Except SyntaxError (α × List Token))
    : Prop :=
  (∃ x place, result = .ok (x, tokens.drop place) ∧ result' = .ok (x, tokens'.drop place))
  ∨ ∃ cause position position',
      result = .error ⟨cause, position⟩
      ∧ result' = .error ⟨cause, position'⟩
      ∧ SamePlace tokens tokens' position position'

/-- Two parsers agree on two token lists from every place on. -/
def AgreeThroughout {α : Type} (tokens tokens' : List Token)
    (parser parser' : List Token → Except SyntaxError (α × List Token))
    : Prop :=
  ∀ place, Agree tokens tokens' (parser (tokens.drop place)) (parser' (tokens'.drop place))

-----------------------------------------------------------------------------------------
-- Tokens with the same meaning
-----------------------------------------------------------------------------------------

section
variable {token token' : Token}

theorem Token.kind_eq_of_meaning (same : token.meaning = token'.meaning)
    : token.kind = token'.kind := by
  have kindOf : ∀ token : Token, token.meaning.1 = token.kind := by
    intro token
    unfold meaning
    split
    next kind => exact kind.symm
    next => rfl
  rw [← kindOf token, same, kindOf]

theorem Token.word_eq_of_meaning (same : token.meaning = token'.meaning)
    (plain : ∀ value, token.kind ≠ .number value)
    : token.word = token'.word := by
  have kinds := kind_eq_of_meaning same
  have wordOf : ∀ token : Token, (∀ value, token.kind ≠ .number value)
      → token.meaning.2 = some token.word := by
    intro token plain
    unfold meaning
    split
    next value kind => exact absurd kind (plain value)
    next => rfl
  have same := congrArg Prod.snd same
  rw [wordOf token plain, wordOf token' (kinds ▸ plain)] at same
  exact Option.some.inj same

end

section
variable {tokens tokens' : List Token}

theorem SameButLayout.length_eq (same : SameButLayout tokens tokens')
    : tokens.length = tokens'.length := by
  simpa using congrArg List.length same.meanings

/-- At every place both lists end, or the next tokens say the same. -/
theorem SameButLayout.drop (same : SameButLayout tokens tokens') (place : Nat)
    : (tokens.drop place = [] ∧ tokens'.drop place = [])
      ∨ ∃ token token',
          tokens.drop place = token :: tokens.drop (place + 1)
          ∧ tokens'.drop place = token' :: tokens'.drop (place + 1)
          ∧ token.meaning = token'.meaning := by
  rcases Nat.lt_or_ge place tokens.length with inside | beyond
  · have inside' : place < tokens'.length := same.length_eq ▸ inside
    have meanings := congrArg (·[place]?) same.meanings
    simp only [List.getElem?_map, List.getElem?_eq_getElem inside,
      List.getElem?_eq_getElem inside', Option.map_some, Option.some.injEq] at meanings
    exact .inr ⟨_, _, List.drop_eq_getElem_cons inside, List.drop_eq_getElem_cons inside',
      meanings⟩
  · exact .inl ⟨List.drop_of_length_le beyond,
      List.drop_of_length_le (same.length_eq ▸ beyond)⟩

/-- The token at a place, where there is one. -/
theorem getElem?_of_drop {list : List Token} {place : Nat} {token : Token} {rest : List Token}
    (here : list.drop place = token :: rest)
    : list[place]? = some token := by
  rw [← List.head?_drop, here, List.head?_cons]

theorem SameButLayout.nextKind?_eq (same : SameButLayout tokens tokens') (place : Nat)
    : nextKind? (tokens.drop place) = nextKind? (tokens'.drop place) := by
  rcases same.drop place with ⟨none, none'⟩ | ⟨token, token', here, here', meaning⟩
  · rw [none, none']
  · rw [here, here']
    exact congrArg some (Token.kind_eq_of_meaning meaning)

theorem SameButLayout.atEnd_eq (same : SameButLayout tokens tokens') (place : Nat)
    : atEnd (tokens.drop place) = atEnd (tokens'.drop place) := by
  unfold atEnd
  rw [same.nextKind?_eq place]
  rcases same.drop place with ⟨none, none'⟩ | ⟨token, token', here, here', -⟩
  · rw [none, none']
  · rw [here, here', List.isEmpty_cons, List.isEmpty_cons]

theorem SameButLayout.nextBinary?_cases (same : SameButLayout tokens tokens') (place : Nat)
    : (nextBinary? (tokens.drop place) = none
        ∧ nextBinary? (tokens'.drop place) = none)
      ∨ ∃ op,
          nextBinary? (tokens.drop place) = some (op, tokens.drop (place + 1))
          ∧ nextBinary? (tokens'.drop place) = some (op, tokens'.drop (place + 1)) := by
  rcases same.drop place with ⟨none, none'⟩ | ⟨token, token', here, here', meaning⟩
  · exact .inl (by rw [none, none']; exact ⟨rfl, rfl⟩)
  · have kinds := Token.kind_eq_of_meaning meaning
    by_cases operator : token.kind = .operator
    · have words := Token.word_eq_of_meaning meaning (by simp [operator])
      rw [here, here']
      cases found : BinaryOp.ofSymbol? token.word with
      | none =>
          exact .inl (by simp [nextBinary?, ← kinds, ← words, operator, found])
      | some op =>
          exact .inr ⟨op, by simp [nextBinary?, ← kinds, ← words, operator, found]⟩
    · refine .inl ?_
      rw [here, here']
      simp [nextBinary?, ← kinds, operator]

/-- A plus sign is one before an operand in both lists or in neither, and any other operator does
not ask for the layout.
-/
theorem SameButLayout.signOf?_eq (same : SameButLayout tokens tokens') {place : Nat}
    {token token' : Token} (here : tokens.drop place = token :: tokens.drop (place + 1))
    (here' : tokens'.drop place = token' :: tokens'.drop (place + 1))
    (meaning : token.meaning = token'.meaning) (operator : token.kind = .operator)
    : signOf? token (tokens.drop (place + 1)) = signOf? token' (tokens'.drop (place + 1)) := by
  have words := Token.word_eq_of_meaning meaning (by simp [operator])
  unfold signOf?
  rw [← words]
  split
  next sign =>
    have plus : token.Writes "+" := ⟨operator, UnaryOp.ofSymbol?_eq_some_iff.mp sign⟩
    suffices touching : touches token (tokens.drop (place + 1))
        = touches token' (tokens'.drop (place + 1)) by rw [touching]
    rcases same.drop (place + 1) with ⟨none, none'⟩ | ⟨next, next', behind, behind', meaning⟩
    · rw [none, none']
      rfl
    · have touching := same.signs place token next token' next' (getElem?_of_drop here)
        (getElem?_of_drop behind) (getElem?_of_drop here') (getElem?_of_drop behind') plus
      rw [behind, behind']
      simp only [touches, Token.kind_eq_of_meaning meaning]
      rw [Bool.eq_iff_iff, Bool.and_eq_true, Bool.and_eq_true, beq_iff_eq, beq_iff_eq, touching]
  next => rfl

end

-----------------------------------------------------------------------------------------
-- Parsers
-----------------------------------------------------------------------------------------

section
variable {α : Type} {tokens tokens' : List Token}

theorem Agree.read (x : α) (place : Nat)
    : Agree tokens tokens' (.ok (x, tokens.drop place)) (.ok (x, tokens'.drop place)) :=
  .inl ⟨x, place, rfl, rfl⟩

theorem Agree.refused {position position' : Nat} (cause : SyntaxCause)
    (place : SamePlace tokens tokens' position position')
    : Agree (α := α) tokens tokens' (.error ⟨cause, position⟩) (.error ⟨cause, position'⟩) :=
  .inr ⟨cause, position, position', rfl, rfl, place⟩

/-- The next tokens stand at the same place, and so do the ends. -/
theorem SameButLayout.nextPlace (same : SameButLayout tokens tokens') (place : Nat)
    : SamePlace tokens tokens' (nextStart (endOf tokens) (tokens.drop place))
        (nextStart (endOf tokens') (tokens'.drop place)) := by
  rcases same.drop place with ⟨none, none'⟩ | ⟨token, token', here, here', -⟩
  · rw [none, none']
    exact .ending
  · rw [here, here']
    exact .token (getElem?_of_drop here) (getElem?_of_drop here')

/-- What stands next is refused in both lists. -/
theorem SameButLayout.refuse_agrees (same : SameButLayout tokens tokens') (cause : SyntaxCause)
    (place : Nat)
    : Agree (α := α) tokens tokens' (refuse (endOf tokens) cause (tokens.drop place))
        (refuse (endOf tokens') cause (tokens'.drop place)) :=
  .refused cause (same.nextPlace place)

/-- A token is refused in both lists. -/
theorem Agree.at_token {place : Nat} {token token' : Token} {rest rest' : List Token}
    (here : tokens.drop place = token :: rest) (here' : tokens'.drop place = token' :: rest')
    (cause : SyntaxCause)
    : Agree (α := α) tokens tokens' (.error ⟨cause, token.start⟩)
        (.error ⟨cause, token'.start⟩) :=
  .refused cause (.token (getElem?_of_drop here) (getElem?_of_drop here'))

/-- Climbing over operators agrees if the right operands do, by induction on the fuel. -/
theorem SameButLayout.climb_agrees (same : SameButLayout tokens tokens')
    {rightOperand rightOperand' : Nat → List Token → Parsed}
    (operands : ∀ least, AgreeThroughout tokens tokens' (rightOperand least)
      (rightOperand' least))
    (least fuel : Nat) (left : Expr)
    : AgreeThroughout tokens tokens' (climb rightOperand least fuel left)
        (climb rightOperand' least fuel left) := by
  induction fuel generalizing left with
  | zero => exact fun place => .read left place
  | succ fuel ih =>
      intro place
      rcases same.nextBinary?_cases place with ⟨none, none'⟩ | ⟨op, found, found'⟩
      · simp only [climb, none, none']
        exact .read left place
      · simp only [climb, found, found']
        split
        next => exact .read left place
        next =>
          rcases operands op.rightStrength (place + 1) with
            ⟨right, behind, read, read'⟩ | ⟨cause, position, position', fails, fails', there⟩
          · simp only [read, read']
            exact ih _ behind
          · simp only [fails, fails']
            exact .refused cause there

section
variable {argument argument' : List Token → Parsed}
  (arguments : AgreeThroughout tokens tokens' argument argument')

include arguments

/-- The arguments of a call agree if each of them does, by induction on the fuel. -/
theorem SameButLayout.callArgs_agree (same : SameButLayout tokens tokens') (name : String)
    (fuel : Nat)
    : AgreeThroughout tokens tokens' (callArgs argument (endOf tokens) name fuel)
        (callArgs argument' (endOf tokens') name fuel) := by
  induction fuel with
  | zero => exact fun place => same.refuse_agrees _ place
  | succ fuel ih =>
      intro place
      rcases arguments place with
        ⟨first, behind, read, read'⟩ | ⟨cause, position, position', fails, fails', there⟩
      · simp only [callArgs, read, read', same.nextKind?_eq behind, same.atEnd_eq behind,
          List.drop_drop]
        split
        next =>
          rcases ih (behind + 1) with
            ⟨others, last, read, read'⟩ | ⟨cause, position, position', fails, fails', there⟩
          · simp only [read, read']
            exact .read _ last
          · simp only [fails, fails']
            exact .refused cause there
        next => exact .read _ (behind + 1)
        next =>
          split
          next => exact same.refuse_agrees _ behind
          next => exact same.refuse_agrees _ behind
      · simp only [callArgs, fails, fails']
        exact .refused cause there

theorem SameButLayout.callTail_agrees (same : SameButLayout tokens tokens') (name : String)
    : AgreeThroughout tokens tokens' (callTail argument (endOf tokens) name)
        (callTail argument' (endOf tokens') name) := by
  intro place
  have lengths : (tokens.drop place).length = (tokens'.drop place).length := by
    rw [List.length_drop, List.length_drop, same.length_eq]
  simp only [callTail, same.nextKind?_eq place, lengths, List.drop_drop]
  split
  next => exact .read _ (place + 1)
  next =>
    rcases same.callArgs_agree arguments name ((tokens'.drop place).length + 1) place with
      ⟨args, behind, read, read'⟩ | ⟨cause, position, position', fails, fails', there⟩
    · simp only [read, read']
      exact .read _ behind
    · simp only [fails, fails']
      exact .refused cause there

theorem SameButLayout.nameTail_agrees (same : SameButLayout tokens tokens') (name : String)
    : AgreeThroughout tokens tokens' (nameTail argument (endOf tokens) name)
        (nameTail argument' (endOf tokens') name) := by
  intro place
  simp only [nameTail, same.nextKind?_eq place, List.drop_drop]
  split
  next => exact same.callTail_agrees arguments name (place + 1)
  next => exact .read _ place

theorem SameButLayout.groupTail_agrees (same : SameButLayout tokens tokens')
    : AgreeThroughout tokens tokens' (groupTail argument (endOf tokens))
        (groupTail argument' (endOf tokens')) := by
  intro place
  rcases arguments place with
    ⟨e, behind, read, read'⟩ | ⟨cause, position, position', fails, fails', there⟩
  · simp only [groupTail, read, read', same.nextKind?_eq behind, List.drop_drop]
    split
    next => exact .read e (behind + 1)
    next => exact same.refuse_agrees _ behind
  · simp only [groupTail, fails, fails']
    exact .refused cause there

end

/-- Two parsers of what stands behind an operator agree at every operator of the lists. -/
def AgreeBehindSigns (tokens tokens' : List Token)
    (afterSign afterSign' : Token → List Token → Parsed)
    : Prop :=
  ∀ place token token',
    tokens.drop place = token :: tokens.drop (place + 1)
    → tokens'.drop place = token' :: tokens'.drop (place + 1)
    → token.meaning = token'.meaning
    → token.kind = .operator
    → Agree tokens tokens' (afterSign token (tokens.drop (place + 1)))
        (afterSign' token' (tokens'.drop (place + 1)))

theorem SameButLayout.signed_agrees (same : SameButLayout tokens tokens')
    {operand operand' : List Token → Parsed}
    (operands : AgreeThroughout tokens tokens' operand operand')
    : AgreeBehindSigns tokens tokens' (signed operand) (signed operand') := by
  intro place token token' here here' meaning operator
  have words := Token.word_eq_of_meaning meaning (by simp [operator])
  unfold signed
  rw [same.signOf?_eq here here' meaning operator, words]
  split
  next => exact .at_token here here' _
  next op =>
    rcases operands (place + 1) with
      ⟨e, behind, read, read'⟩ | ⟨cause, position, position', fails, fails', there⟩
    · simp only [read, read']
      exact .read _ behind
    · simp only [fails, fails']
      exact .refused cause there

/-- Operands agree if what stands in parentheses and behind operators does, by the class of the next
token.
-/
theorem SameButLayout.primary_agrees (same : SameButLayout tokens tokens')
    {inner inner' : List Token → Parsed} {afterSign afterSign' : Token → List Token → Parsed}
    (inners : AgreeThroughout tokens tokens' inner inner')
    (signs : AgreeBehindSigns tokens tokens' afterSign afterSign')
    : AgreeThroughout tokens tokens' (primary inner afterSign (endOf tokens))
        (primary inner' afterSign' (endOf tokens')) := by
  intro place
  rcases same.drop place with ⟨none, none'⟩ | ⟨token, token', here, here', meaning⟩
  · have refused := same.refuse_agrees (α := Expr) .missingOperand place
    rw [none, none'] at refused ⊢
    exact refused
  · have kinds := Token.kind_eq_of_meaning meaning
    have missing := same.refuse_agrees (α := Expr) .missingOperand place
    rw [here, here'] at missing ⊢
    unfold primary
    dsimp only
    rw [← kinds]
    cases kind : token.kind with
    | number value => exact .read _ (place + 1)
    | name =>
        rw [← Token.word_eq_of_meaning meaning (by simp [kind])]
        exact same.nameTail_agrees inners token.word (place + 1)
    | operator => exact signs place token token' here here' meaning kind
    | opening => exact same.groupTail_agrees inners (place + 1)
    | ending => exact missing
    | closing | comma | other =>
        rw [← Token.word_eq_of_meaning meaning (by simp [kind])]
        exact .at_token here here' _

/-- The parsers of a level agree, by induction on the levels that may still open. -/
theorem SameButLayout.level_agrees (same : SameButLayout tokens tokens') (room : Nat)
    : (∀ least, AgreeThroughout tokens tokens' ((level (endOf tokens) room).expression least)
        ((level (endOf tokens') room).expression least))
      ∧ AgreeThroughout tokens tokens' (level (endOf tokens) room).primary
        (level (endOf tokens') room).primary := by
  induction room with
  | zero =>
      refine ⟨fun least place => same.refuse_agrees _ place, same.primary_agrees ?_ ?_⟩
      · exact fun place => same.refuse_agrees _ place
      · exact fun place token token' here here' _ _ => .at_token here here' _
  | succ room ih =>
      obtain ⟨expressions, primaries⟩ := ih
      have wider : ∀ least, AgreeThroughout tokens tokens'
          ((level (endOf tokens) (room + 1)).expression least)
          ((level (endOf tokens') (room + 1)).expression least) := by
        intro least place
        simp only [level]
        rcases primaries place with
          ⟨left, behind, read, read'⟩ | ⟨cause, position, position', fails, fails', there⟩
        · have lengths : (tokens.drop behind).length = (tokens'.drop behind).length := by
            rw [List.length_drop, List.length_drop, same.length_eq]
          simp only [read, read', lengths]
          exact same.climb_agrees expressions least _ left behind
        · simp only [fails, fails']
          exact .refused cause there
      exact ⟨wider, same.primary_agrees (wider 0) (same.signed_agrees primaries)⟩

/-- Token lists that differ in their layout alone are parsed to the same tree, or refused for the
same cause at the same place.
-/
theorem SameButLayout.parse_agrees (same : SameButLayout tokens tokens')
    : (∃ e, parse tokens = .ok e ∧ parse tokens' = .ok e)
      ∨ ∃ cause position position',
          parse tokens = .error ⟨cause, position⟩
          ∧ parse tokens' = .error ⟨cause, position'⟩
          ∧ SamePlace tokens tokens' position position' := by
  have whole := (same.level_agrees maxNesting).1 0 0
  rw [List.drop_zero, List.drop_zero] at whole
  unfold parse
  rcases whole with
    ⟨e, behind, read, read'⟩ | ⟨cause, position, position', fails, fails', there⟩
  · simp only [read, read', same.atEnd_eq behind]
    split
    next => exact .inl ⟨e, rfl, rfl⟩
    next => exact .inr ⟨.trailingTokens, _, _, rfl, rfl, same.nextPlace behind⟩
  · simp only [fails, fails']
    exact .inr ⟨cause, position, position', rfl, rfl, there⟩

end

end Wavetable.Formula
