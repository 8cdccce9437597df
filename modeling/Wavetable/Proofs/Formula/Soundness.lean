import Wavetable.Proofs.Formula.Grammar

/-!
Soundness of the parser. What it reads is derived by the grammar, with no more levels open at
once than it had room for, and no operator that would go on with the phrase comes next.
-/

namespace Wavetable.Formula

/-- No operator of at least the given strength comes next. -/
def Stops (least : Nat) (tokens : List Token) : Prop :=
  ∀ op rest, nextBinary? tokens = some (op, rest) → op.strength < least

/-- An operator that comes next takes phrases of the given tier for left operands. -/
def Attaches (tier : Nat) (tokens : List Token) : Prop :=
  ∀ op rest, nextBinary? tokens = some (op, rest) → op.leftTier ≤ tier

/-- A symbol stands for an operator exactly where it is its symbol, as no two have the same. -/
theorem BinaryOp.ofSymbol?_eq_some_iff {symbol : String} {op : BinaryOp}
    : BinaryOp.ofSymbol? symbol = some op ↔ symbol = op.symbol := by
  constructor
  · intro found
    have same := List.find?_some found
    exact (beq_iff_eq.mp same).symm
  · rintro rfl
    exact BinaryOp.ofSymbol?_symbol op

/-- The same for the operators before an operand. -/
theorem UnaryOp.ofSymbol?_eq_some_iff {symbol : String} {op : UnaryOp}
    : UnaryOp.ofSymbol? symbol = some op ↔ symbol = op.symbol := by
  constructor
  · intro found
    have same := List.find?_some found
    exact (beq_iff_eq.mp same).symm
  · rintro rfl
    cases op <;> decide

/-- An operator comes next exactly where the first token writes its symbol. -/
theorem nextBinary?_eq_some_iff {tokens rest : List Token} {op : BinaryOp}
    : nextBinary? tokens = some (op, rest)
      ↔ ∃ token : Token, tokens = token :: rest ∧ token.Writes op.symbol := by
  cases tokens with
  | nil => simp [nextBinary?]
  | cons token tail =>
      by_cases kind : token.kind = .operator
      · simp only [nextBinary?, kind, beq_self_eq_true, if_true, Option.map_eq_some_iff,
          Prod.mk.injEq, BinaryOp.ofSymbol?_eq_some_iff, List.cons.injEq]
        constructor
        · rintro ⟨_, symbol, rfl, rfl⟩
          exact ⟨token, ⟨rfl, rfl⟩, kind, symbol⟩
        · rintro ⟨_, ⟨rfl, rfl⟩, _, symbol⟩
          exact ⟨op, symbol, rfl, rfl⟩
      · simp only [nextBinary?, beq_eq_false_iff_ne.mpr kind, Bool.false_eq_true, if_false,
          reduceCtorEq, List.cons.injEq, false_iff]
        rintro ⟨_, ⟨rfl, rfl⟩, written⟩
        exact kind written.1

theorem nextBinary?_of_writes {token : Token} {tokens : List Token} {op : BinaryOp}
    (written : token.Writes op.symbol)
    : nextBinary? (token :: tokens) = some (op, tokens) :=
  nextBinary?_eq_some_iff.mpr ⟨token, rfl, written⟩

/-- The next token has a class exactly where it is the first of the list. -/
theorem nextKind?_eq_some_iff {tokens : List Token} {kind : TokenKind}
    : nextKind? tokens = some kind ↔ ∃ token rest, tokens = token :: rest ∧ token.kind = kind := by
  cases tokens <;> simp [nextKind?]

/-- Behind a right operand, no operator takes more than the operation for its left operand, by
comparing strengths: only powers ask for more on the left than their strength, and they do not
come behind the right operand of an operator that binds as much or less.
-/
theorem Stops.attaches {op : BinaryOp} {tokens : List Token}
    (stops : Stops op.rightStrength tokens)
    : Attaches op.tier tokens := by
  intro next rest found
  have bound := stops next rest found
  revert bound
  cases op <;> cases next <;> decide

/-- Nothing comes behind the end. -/
theorem Stops.nil (least : Nat) : Stops least [] := by
  intro op rest found
  simp [nextBinary?] at found

/-- A left operand goes on to a phrase of the strength asked for, which ends where no operator of
that strength comes next. The invariant is that the next operator can take the phrase so far for
its left operand; the induction is on the fuel, and every operator takes a token.
-/
theorem climb_sound {rightOperand : Nat → List Token → Parsed} {room least : Nat}
    (right : ∀ op : BinaryOp,
      ∀ {tokens e rest},
        rightOperand op.rightStrength tokens = .ok (e, rest)
        → ∃ used depth,
            tokens = used ++ rest
            ∧ Phrase op.rightTier used e depth
            ∧ depth + 1 ≤ room
            ∧ Stops op.rightStrength rest)
    {fuel : Nat} {left e : Expr} {tokens rest before : List Token} {tier depth : Nat}
    (enough : tokens.length ≤ fuel) (derived : Phrase tier before left depth)
    (fits : depth ≤ room) (asked : least - 1 ≤ tier) (attaches : Attaches tier tokens)
    (accepted : climb rightOperand least fuel left tokens = .ok (e, rest))
    : ∃ more depth',
        tokens = more ++ rest
        ∧ Phrase (least - 1) (before ++ more) e depth'
        ∧ depth' ≤ room
        ∧ Stops least rest := by
  induction fuel generalizing left tokens before tier depth with
  | zero =>
      have empty : tokens = [] := List.length_eq_zero_iff.mp (Nat.le_zero.mp enough)
      subst empty
      obtain ⟨rfl, rfl⟩ : left = e ∧ [] = rest := by simpa [climb] using accepted
      exact ⟨[], depth, rfl, by simpa using derived.loosen asked, fits, .nil least⟩
  | succ fuel ih =>
      unfold climb at accepted
      cases found : nextBinary? tokens with
      | none =>
          obtain ⟨rfl, rfl⟩ : left = e ∧ tokens = rest := by simpa [found] using accepted
          refine ⟨[], depth, rfl, by simpa using derived.loosen asked, fits, ?_⟩
          intro op rest next
          simp [found] at next
      | some next =>
          obtain ⟨op, tail⟩ := next
          by_cases weak : op.strength < least
          · obtain ⟨rfl, rfl⟩ : left = e ∧ tokens = rest := by simpa [found, weak] using accepted
            refine ⟨[], depth, rfl, by simpa using derived.loosen asked, fits, ?_⟩
            intro op' rest' next
            obtain ⟨rfl, -⟩ : op = op' ∧ tail = rest' := by simpa [found] using next
            exact weak
          · cases read : rightOperand op.rightStrength tail with
            | error error => simp [found, weak, read] at accepted
            | ok result =>
                obtain ⟨operand, tail'⟩ := result
                obtain ⟨token, rfl, written⟩ := nextBinary?_eq_some_iff.mp found
                obtain ⟨second, depth', rfl, behind, fits', stops⟩ := right op read
                -- the operation is the left operand of the operators that come next
                have joined := Phrase.binary written
                  (derived.loosen (attaches op _ found)) behind
                have shorter : tail'.length ≤ fuel := by
                  simp only [List.length_cons, List.length_append] at enough
                  omega
                obtain ⟨more, depth'', rfl, phrase, fits'', stops'⟩ := ih shorter joined
                  (by omega) (by unfold BinaryOp.tier; omega) stops.attaches
                  (by simpa [found, weak, read] using accepted)
                exact ⟨token :: (second ++ more), depth'', by simp, by simpa using phrase, fits'',
                  stops'⟩

/-- The parser of an expression in parentheses or of an argument reads a phrase. -/
def ReadsPhrase (room : Nat) (inner : List Token → Parsed) : Prop :=
  ∀ {tokens e rest},
    inner tokens = .ok (e, rest)
    → ∃ used depth, tokens = used ++ rest ∧ Phrase 0 used e depth ∧ depth + 1 ≤ room

/-- The arguments of a call are read up to its closing parenthesis, by induction on the fuel. -/
theorem callArgs_sound {argument : List Token → Parsed} {room stop : Nat} {name : String}
    (reads : ReadsPhrase room argument) {fuel : Nat} {tokens rest : List Token} {args : List Expr}
    (accepted : callArgs argument stop name fuel tokens = .ok (args, rest))
    : ∃ used closing depth,
        tokens = used ++ closing :: rest
        ∧ closing.kind = .closing
        ∧ Arguments used args depth
        ∧ depth ≤ room := by
  induction fuel generalizing tokens args with
  | zero => simp [callArgs, refuse] at accepted
  | succ fuel ih =>
      unfold callArgs at accepted
      cases read : argument tokens with
      | error error => simp [read] at accepted
      | ok result =>
          obtain ⟨first, tail⟩ := result
          obtain ⟨used, depth, rfl, phrase, fits⟩ := reads read
          simp only [read] at accepted
          split at accepted
          next separated =>
            obtain ⟨comma, tail, rfl, separates⟩ := nextKind?_eq_some_iff.mp separated
            simp only [List.drop_succ_cons, List.drop_zero] at accepted
            cases readMore : callArgs argument stop name fuel tail with
            | error error => simp [readMore] at accepted
            | ok result =>
                obtain ⟨others, tail'⟩ := result
                obtain ⟨rfl, rfl⟩ : first :: others = args ∧ tail' = rest := by
                  simpa [readMore] using accepted
                obtain ⟨used', closing, depth', rfl, closes, listed, fits'⟩ := ih readMore
                exact ⟨used ++ comma :: used', closing, max (depth + 1) depth', by simp, closes,
                  .more phrase separates listed, by omega⟩
          next closed =>
            obtain ⟨closing, tail, rfl, closes⟩ := nextKind?_eq_some_iff.mp closed
            obtain ⟨rfl, rfl⟩ : [first] = args ∧ tail = rest := by simpa using accepted
            exact ⟨used, closing, depth + 1, rfl, closes, .last phrase, fits⟩
          next =>
            split at accepted <;> simp [refuse] at accepted

/-- What stands behind a name belongs to it only where a parenthesis opens. -/
theorem nameTail_sound {argument : List Token → Parsed} {room stop : Nat} {token : Token}
    {tokens rest : List Token} {e : Expr} (reads : ReadsPhrase room argument)
    (named : token.kind = .name)
    (accepted : nameTail argument stop token.word tokens = .ok (e, rest))
    : ∃ used depth, token :: tokens = used ++ rest ∧ Operand used e depth ∧ depth ≤ room := by
  unfold nameTail at accepted
  split at accepted
  next opened =>
    obtain ⟨opening, tail, rfl, opens⟩ := nextKind?_eq_some_iff.mp opened
    simp only [List.drop_succ_cons, List.drop_zero] at accepted
    unfold callTail at accepted
    split at accepted
    next closed =>
      obtain ⟨closing, tail, rfl, closes⟩ := nextKind?_eq_some_iff.mp closed
      obtain ⟨rfl, rfl⟩ : .call token.word [] = e ∧ tail = rest := by simpa using accepted
      exact ⟨[token, opening, closing], 0, rfl, .emptyCall named opens closes, Nat.zero_le _⟩
    next =>
      split at accepted
      · simp at accepted
      next args tail' read =>
        obtain ⟨rfl, rfl⟩ : .call token.word args = e ∧ tail' = rest := by simpa using accepted
        obtain ⟨used, closing, depth, rfl, closes, listed, fits⟩ := callArgs_sound reads read
        exact ⟨token :: opening :: (used ++ [closing]), depth, by simp,
          .call named opens closes listed, fits⟩
  next =>
    obtain ⟨rfl, rfl⟩ : .var token.word = e ∧ tokens = rest := by simpa using accepted
    exact ⟨[token], 0, rfl, .name named, Nat.zero_le _⟩

/-- A phrase in parentheses opens a level of its own. -/
theorem groupTail_sound {inner : List Token → Parsed} {room stop : Nat} {token : Token}
    {tokens rest : List Token} {e : Expr} (reads : ReadsPhrase room inner)
    (opens : token.kind = .opening) (accepted : groupTail inner stop tokens = .ok (e, rest))
    : ∃ used depth, token :: tokens = used ++ rest ∧ Operand used e depth ∧ depth ≤ room := by
  unfold groupTail at accepted
  split at accepted
  · simp at accepted
  next inside tail read =>
    obtain ⟨used, depth, rfl, phrase, fits⟩ := reads read
    split at accepted
    next closed =>
      obtain ⟨closing, tail, rfl, closes⟩ := nextKind?_eq_some_iff.mp closed
      obtain ⟨rfl, rfl⟩ : inside = e ∧ tail = rest := by simpa using accepted
      exact ⟨token :: (used ++ [closing]), depth + 1, by simp, .group opens closes phrase, fits⟩
    next => simp [refuse] at accepted

/-- A token that counts as an operator before an operand has its symbol, and touches the operand if
it is a plus sign.
-/
theorem signOf?_eq_some {token : Token} {tokens : List Token} {op : UnaryOp}
    (found : signOf? token tokens = some op)
    : token.word = op.symbol ∧ (op = .keep → token.Touches tokens) := by
  unfold signOf? at found
  split at found
  next kept =>
    split at found
    next touching =>
      obtain rfl : UnaryOp.keep = op := by simpa using found
      refine ⟨UnaryOp.ofSymbol?_eq_some_iff.mp kept, fun _ => ?_⟩
      cases tokens with
      | nil => simp [touches] at touching
      | cons next rest => exact ⟨next, rest, rfl, by simp_all [touches]⟩
    next => simp at found
  next other =>
    refine ⟨UnaryOp.ofSymbol?_eq_some_iff.mp found, ?_⟩
    rintro rfl
    exact absurd found other

/-- An operator before an operand opens a level of its own. -/
theorem signed_sound {operand : List Token → Parsed} {room : Nat} {token : Token}
    {tokens rest : List Token} {e : Expr}
    (reads : ∀ {tokens e rest},
      operand tokens = .ok (e, rest)
      → ∃ used depth, tokens = used ++ rest ∧ Operand used e depth ∧ depth ≤ room)
    (kind : token.kind = .operator) (accepted : signed operand token tokens = .ok (e, rest))
    : ∃ used depth,
        token :: tokens = used ++ rest ∧ Operand used e depth ∧ depth ≤ room + 1 := by
  unfold signed at accepted
  split at accepted
  · simp at accepted
  next op found =>
    split at accepted
    · simp at accepted
    next inside tail read =>
      obtain ⟨rfl, rfl⟩ : .unary op inside = e ∧ tail = rest := by simpa using accepted
      obtain ⟨used, depth, rfl, single, fits⟩ := reads read
      obtain ⟨symbol, touching⟩ := signOf?_eq_some found
      refine ⟨token :: used, depth + 1, rfl, .sign ⟨kind, symbol⟩ ?_ single, by omega⟩
      -- the token that the sign touches is the first one of its operand
      intro kept
      obtain ⟨next, more, same, start⟩ := touching kept
      obtain ⟨first, others, rfl, -⟩ := single.head
      simp only [List.cons_append, List.cons.injEq] at same
      exact ⟨first, others, rfl, same.1 ▸ start⟩

/-- The parsers of a level accept only what the grammar derives within the room that is left. -/
structure Level.Sound (level : Level) (room : Nat) : Prop where
  expression
    : ∀ {least tokens e rest},
        least ≤ 8
        → level.expression least tokens = .ok (e, rest)
        → ∃ used depth,
            tokens = used ++ rest
            ∧ Phrase (least - 1) used e depth
            ∧ depth + 1 ≤ room
            ∧ Stops least rest
  primary
    : ∀ {tokens e rest},
        level.primary tokens = .ok (e, rest)
        → ∃ used depth, tokens = used ++ rest ∧ Operand used e depth ∧ depth ≤ room

/-- Primary expressions are operands, where the parsers for what stands in parentheses and behind
an operator are sound.
-/
theorem primary_sound {inner : List Token → Parsed} {afterSign : Token → List Token → Parsed}
    {room stop : Nat} (reads : ReadsPhrase room inner)
    (signs : ∀ {token tokens e rest},
      token.kind = .operator
      → afterSign token tokens = .ok (e, rest)
      → ∃ used depth, token :: tokens = used ++ rest ∧ Operand used e depth ∧ depth ≤ room)
    {tokens rest : List Token} {e : Expr}
    (accepted : primary inner afterSign stop tokens = .ok (e, rest))
    : ∃ used depth, tokens = used ++ rest ∧ Operand used e depth ∧ depth ≤ room := by
  cases tokens with
  | nil => simp [primary, refuse] at accepted
  | cons token tokens =>
      unfold primary at accepted
      cases kind : token.kind with
      | number value =>
          obtain ⟨rfl, rfl⟩ : .number value = e ∧ tokens = rest := by simpa [kind] using accepted
          exact ⟨[token], 0, rfl, .number kind, Nat.zero_le _⟩
      | name => exact nameTail_sound reads kind (by simpa [kind] using accepted)
      | opening => exact groupTail_sound reads kind (by simpa [kind] using accepted)
      | operator => exact signs kind (by simpa [kind] using accepted)
      | closing | comma | ending | other _ => simp [kind, refuse] at accepted

/-- The parsers of every level are sound, by induction on the room that is left. -/
theorem level_sound (stop room : Nat) : (level stop room).Sound room := by
  induction room with
  | zero =>
      constructor
      · intro least tokens e rest _ accepted
        simp [level, refuse] at accepted
      · intro tokens e rest accepted
        -- no level can open, but operands that open none are read
        refine primary_sound ?_ ?_ accepted
        · intro tokens e rest accepted
          simp [refuse] at accepted
        · intro token tokens e rest _ accepted
          simp at accepted
  | succ room ih =>
      have right : ∀ op : BinaryOp,
          ∀ {tokens e rest},
            (level stop room).expression op.rightStrength tokens = .ok (e, rest)
            → ∃ used depth,
                tokens = used ++ rest
                ∧ Phrase op.rightTier used e depth
                ∧ depth + 1 ≤ room
                ∧ Stops op.rightStrength rest := by
        intro op tokens e rest accepted
        exact ih.expression (by cases op <;> decide) accepted
      have expression : ∀ {least tokens e rest},
          least ≤ 8
          → (level stop (room + 1)).expression least tokens = .ok (e, rest)
          → ∃ used depth,
              tokens = used ++ rest
              ∧ Phrase (least - 1) used e depth
              ∧ depth + 1 ≤ room + 1
              ∧ Stops least rest := by
        intro least tokens e rest small accepted
        simp only [level] at accepted
        split at accepted
        · simp at accepted
        next left tail read =>
          obtain ⟨before, depth, rfl, single, fits⟩ := ih.primary read
          -- every operator takes a single operand on its left
          have attaches : Attaches tiers.length tail := by
            intro op _ _
            cases op <;> decide
          obtain ⟨more, depth', rfl, phrase, fits', stops⟩ := climb_sound right le_rfl
            (.operand single) fits (by simp only [tiers, List.length]; omega) attaches accepted
          exact ⟨before ++ more, depth', by simp, phrase, by omega, stops⟩
      refine ⟨expression, ?_⟩
      intro tokens e rest accepted
      refine primary_sound ?_ ?_ accepted
      · intro tokens e rest accepted
        obtain ⟨used, depth, same, phrase, fits, -⟩ := expression (Nat.zero_le _) accepted
        exact ⟨used, depth, same, phrase, fits⟩
      · intro token tokens e rest kind accepted
        exact signed_sound ih.primary kind accepted

end Wavetable.Formula
