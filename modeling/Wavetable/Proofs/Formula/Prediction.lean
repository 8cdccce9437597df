import Wavetable.Proofs.Formula.Lookahead

/-!
Operands are read with one token of lookahead, and so is everything that the levels of the parser
read.
-/

namespace Wavetable.Formula

-----------------------------------------------------------------------------------------
-- Operands
-----------------------------------------------------------------------------------------

/-- The arguments of a call with the parenthesis that closes them. -/
def FitsArguments (room : Nat) (tokens : List Token) : Prop :=
  ∃ listed closing args depth,
    tokens = listed ++ [closing]
    ∧ closing.kind = .closing
    ∧ Arguments listed args depth
    ∧ depth ≤ room

/-- Arguments are refused with any fuel that is enough. -/
def RefusesArguments (argument : Reader Expr) (name : String) (error : SyntaxError)
    (tokens : List Token)
    : Prop :=
  ∀ stop fuel,
    tokens.length < fuel → callArgs (argument stop) stop name fuel tokens = .error error

section
variable {argument : List Token → Parsed} {stop fuel : Nat} {name : String} {first : Expr}
  {tokens tail : List Token}

/-- Behind a comma, arguments are read on. -/
theorem callArgs_comma {comma : Token} (read : argument tokens = .ok (first, comma :: tail))
    (separates : comma.kind = .comma)
    : callArgs argument stop name (fuel + 1) tokens
      = (callArgs argument stop name fuel tail).map
          fun (others, rest) => (first :: others, rest) := by
  simp only [callArgs, read, nextKind?, List.head?_cons, Option.map_some, separates,
    List.drop_succ_cons, List.drop_zero]
  cases callArgs argument stop name fuel tail <;> rfl

theorem callArgs_closing {closing : Token} (read : argument tokens = .ok (first, closing :: tail))
    (closes : closing.kind = .closing)
    : callArgs argument stop name (fuel + 1) tokens = .ok ([first], tail) := by
  simp [callArgs, read, nextKind?, closes]

end

/-- Arguments that are refused behind a comma are refused together with those before it. -/
theorem refused_arguments_later {room stop depth : Nat} {argument : Reader Expr} {name : String}
    {used tail : List Token} {comma : Token} {first : Expr} {error : SyntaxError}
    (phrase : Phrase 0 used first depth) (fits : depth + 1 ≤ room)
    (separates : comma.kind = .comma)
    (read : ∀ stop' tail',
      argument stop' (used ++ comma :: tail') = .ok (first, comma :: tail'))
    (later : Refused stop error (FitsArguments room) (RefusesArguments argument name error) tail)
    : Refused stop error (FitsArguments room) (RefusesArguments argument name error)
        (used ++ comma :: tail) := by
  rw [List.append_cons]
  refine later.behind (used ++ [comma]) 0 ?_ ?_
  · rintro list behind - ⟨listed, closing, args, depth', rfl, closes, arguments, fits'⟩
    exact ⟨used ++ comma :: listed, closing, first :: args, max (depth + 1) depth',
      by simp [closings], closes, .more phrase separates arguments, by omega⟩
  · rintro next others others' rfl refuses stop' (_ | fuel') enough
    · contradiction
    have shorter : (next :: others').length < fuel' := by
      simp only [List.length_append, List.length_cons] at enough ⊢
      omega
    rw [List.append_assoc, List.singleton_append, callArgs_comma (read stop' _) separates,
      refuses stop' fuel' shorter]
    rfl

section
variable {room : Nat} {argument : Reader Expr} (ahead : LooksAhead argument (FitsPhrase room 0))
  (reads : ∀ stop, ReadsPhrase room (argument stop))

include ahead

/-- Arguments are read up to their closing parenthesis. Fuel for more tokens than there are changes
nothing, and the induction is on the fuel.
-/
theorem callArgs_foresees {name : String} {fuel stop : Nat} {tokens rest : List Token}
    {args : List Expr} (read : callArgs (argument stop) stop name fuel tokens = .ok (args, rest))
    : ∃ used,
        tokens = used ++ rest
        ∧ ∀ next tail,
            rest = next :: tail
            → ∀ stop' tail' fuel',
                (used ++ next :: tail').length < fuel'
                → callArgs (argument stop') stop' name fuel' (used ++ next :: tail')
                  = .ok (args, next :: tail') := by
  induction fuel generalizing tokens args with
  | zero => simp [callArgs, refuse] at read
  | succ fuel ih =>
      unfold callArgs at read
      split at read
      · contradiction
      next first tail taken =>
        obtain ⟨used, rfl, same⟩ := ahead.accepts taken
        split at read
        next separated =>
          obtain ⟨comma, tail, rfl, separates⟩ := nextKind?_eq_some_iff.mp separated
          simp only [List.drop_succ_cons, List.drop_zero] at read
          split at read
          · contradiction
          next others tail' takenMore =>
            obtain ⟨rfl, rfl⟩ : first :: others = args ∧ tail' = rest := by simpa using read
            obtain ⟨more, rfl, sameMore⟩ := ih takenMore
            refine ⟨used ++ comma :: more, by simp, ?_⟩
            rintro next tail rfl stop' tail' (_ | fuel') enough
            · contradiction
            have shorter : (more ++ next :: tail').length < fuel' := by
              simp only [List.length_append, List.length_cons] at enough ⊢
              omega
            rw [List.append_assoc, List.cons_append,
              callArgs_comma (same comma _ rfl stop' _) separates,
              sameMore next tail rfl stop' tail' fuel' shorter]
            rfl
        next closed =>
          obtain ⟨closing, tail, rfl, closes⟩ := nextKind?_eq_some_iff.mp closed
          obtain ⟨rfl, rfl⟩ : [first] = args ∧ tail = rest := by simpa using read
          refine ⟨used ++ [closing], by simp, ?_⟩
          rintro next tail rfl stop' tail' (_ | fuel') enough
          · contradiction
          rw [List.append_assoc]
          exact callArgs_closing (same closing _ rfl stop' _) closes
        next =>
          split at read <;> simp [refuse] at read

/-- A phrase in parentheses is read up to its closing parenthesis. -/
theorem groupTail_foresees : Foresees fun stop => groupTail (argument stop) stop := by
  intro stop tokens e rest read
  dsimp only [groupTail] at read
  split at read
  · contradiction
  next inside tail taken =>
    obtain ⟨used, rfl, same⟩ := ahead.accepts taken
    split at read
    next closed =>
      obtain ⟨closing, tail, rfl, closes⟩ := nextKind?_eq_some_iff.mp closed
      obtain ⟨rfl, rfl⟩ : inside = e ∧ tail = rest := by simpa using read
      refine ⟨used ++ [closing], by simp, ?_⟩
      rintro next tail rfl stop' tail'
      have again := same closing _ rfl stop' (next :: tail')
      simp [groupTail, again, nextKind?, closes]
    next => simp [refuse] at read

/-- Behind a name, the arguments are read where a parenthesis opens them, and nothing elsewhere. -/
theorem nameTail_foresees (name : String)
    : Foresees fun stop => nameTail (argument stop) stop name := by
  intro stop tokens e rest read
  dsimp only [nameTail] at read
  split at read
  next opened =>
    obtain ⟨opening, tail, rfl, opens⟩ := nextKind?_eq_some_iff.mp opened
    simp only [List.drop_succ_cons, List.drop_zero, callTail] at read
    split at read
    next closed =>
      obtain ⟨closing, tail, rfl, closes⟩ := nextKind?_eq_some_iff.mp closed
      obtain ⟨rfl, rfl⟩ : .call name [] = e ∧ tail = rest := by simpa using read
      refine ⟨[opening, closing], rfl, ?_⟩
      rintro next tail rfl stop' tail'
      simp [nameTail, callTail, nextKind?, opens, closes]
    next open' =>
      split at read
      · contradiction
      next args tail' taken =>
        obtain ⟨rfl, rfl⟩ : .call name args = e ∧ tail' = rest := by simpa using read
        obtain ⟨used, rfl, same⟩ := callArgs_foresees ahead taken
        refine ⟨opening :: used, rfl, ?_⟩
        rintro next tail rfl stop' tail'
        have again := same next tail rfl stop' tail' _ (Nat.lt_succ_self _)
        have open'' : nextKind? (used ++ next :: tail') ≠ some .closing := by
          cases used <;> exact open'
        simp only [List.cons_append, nameTail_of_opens opens, callTail, open'', if_false, again]
  next unopened =>
    obtain ⟨rfl, rfl⟩ : .var name = e ∧ tokens = rest := by simpa using read
    refine ⟨[], rfl, ?_⟩
    rintro next tail rfl stop' tail'
    exact if_neg unopened

include reads

/-- A refused phrase in parentheses is refused inside them, or where they should close. -/
theorem groupTail_refused {stop : Nat} {tokens : List Token} {error : SyntaxError}
    (refused : groupTail (argument stop) stop tokens = .error error)
    : Refused stop error
        (fun list => ∃ listed closing e depth,
          list = listed ++ [closing] ∧ closing.kind = .closing ∧ Phrase 0 listed e depth
            ∧ depth + 1 ≤ room)
        (fun list => ∀ stop', groupTail (argument stop') stop' list = .error error)
        tokens := by
  unfold groupTail at refused
  split at refused
  next error' taken =>
    obtain rfl : error' = error := by simpa using refused
    refine (ahead.refuses taken).behind [] 1 ?_ ?_
    · rintro list behind - ⟨e, depth, phrase, fits⟩
      exact ⟨list, _, e, depth, rfl, rfl, phrase, fits⟩
    · intro first others others' _ refuses stop'
      simp [groupTail, refuses stop']
  next inside tail taken =>
    obtain ⟨used, rfl, same⟩ := ahead.accepts taken
    obtain ⟨used', depth, same', phrase, fits⟩ := reads stop taken
    obtain rfl := List.append_cancel_right same'
    split at refused
    next => contradiction
    next unclosed =>
      obtain rfl : ⟨.missingClosing, nextStart stop tail⟩ = error := by
        simpa [refuse] using refused
      refine .next 1 rfl ⟨used, _, inside, depth, rfl, rfl, phrase, fits⟩ ?_
      rintro next tail tail' rfl stop'
      have again := same next tail rfl stop' tail'
      have open' : next.kind ≠ .closing := by simpa [nextKind?] using unclosed
      simp [groupTail, again, nextKind?, open', refuse, nextStart]

/-- Refused arguments are refused inside one of them, or behind one where neither a comma nor a
closing parenthesis follows. The induction is on the fuel, of which there is enough.
-/
theorem callArgs_refused {name : String} {fuel stop : Nat} {tokens : List Token}
    {error : SyntaxError} (enough : tokens.length < fuel)
    (refused : callArgs (argument stop) stop name fuel tokens = .error error)
    : Refused stop error (FitsArguments room) (RefusesArguments argument name error) tokens := by
  induction fuel generalizing tokens with
  | zero => contradiction
  | succ fuel ih =>
      unfold callArgs at refused
      split at refused
      next error' taken =>
        obtain rfl : error' = error := by simpa using refused
        refine (ahead.refuses taken).behind [] 1 ?_ ?_
        · rintro list behind - ⟨e, depth, phrase, fits⟩
          exact ⟨list, _, [e], depth + 1, rfl, rfl, .last phrase, fits⟩
        · rintro first others others' _ refuses stop' (_ | fuel') enough'
          · contradiction
          · simp [callArgs, refuses stop']
      next first tail taken =>
        obtain ⟨used, rfl, same⟩ := ahead.accepts taken
        obtain ⟨used', depth, same', phrase, fits⟩ := reads stop taken
        obtain rfl := List.append_cancel_right same'
        split at refused
        next separated =>
          obtain ⟨comma, tail, rfl, separates⟩ := nextKind?_eq_some_iff.mp separated
          simp only [List.drop_succ_cons, List.drop_zero] at refused
          split at refused
          next error' takenMore =>
            obtain rfl : error' = error := by simpa using refused
            have shorter : tail.length < fuel := by
              simp only [List.length_append, List.length_cons] at enough
              omega
            exact refused_arguments_later phrase fits separates (same comma tail rfl)
              (ih shorter takenMore)
          next => contradiction
        next => contradiction
        next noComma noClosing =>
          have place : error.position = nextStart stop tail := by
            split at refused <;> obtain rfl := Except.error.inj refused <;> rfl
          refine .next 1 place
            ⟨used, _, [first], depth + 1, rfl, rfl, .last phrase, fits⟩ ?_
          rintro next tail tail' rfl stop' (_ | fuel') enough'
          · contradiction
          have again := same next tail rfl stop' tail'
          simp only [callArgs, again]
          -- what is said of the next token rests on its class
          split
          next comma => exact absurd comma noComma
          next closing => exact absurd closing noClosing
          next => exact refused

/-- Behind a name, only arguments are refused. -/
theorem nameTail_refused {name : Token} {stop : Nat} {tokens : List Token} {error : SyntaxError}
    (named : name.kind = .name)
    (refused : nameTail (argument stop) stop name.word tokens = .error error)
    : Refused stop error (fun list => FitsOperand room (name :: list))
        (fun list => ∀ stop', nameTail (argument stop') stop' name.word list = .error error)
        tokens := by
  unfold nameTail at refused
  split at refused
  next opened =>
    obtain ⟨opening, tail, rfl, opens⟩ := nextKind?_eq_some_iff.mp opened
    simp only [List.drop_succ_cons, List.drop_zero, callTail] at refused
    split at refused
    · contradiction
    next open' =>
      split at refused
      next error' taken =>
        obtain rfl : error' = error := by simpa using refused
        refine (callArgs_refused ahead reads (Nat.lt_succ_self _) taken).behind [opening] 0 ?_ ?_
        · rintro list behind - ⟨listed, closing, args, depth, rfl, closes, arguments, fits⟩
          exact ⟨_, depth, by simpa [closings] using .call named opens closes arguments, fits⟩
        · rintro first others others' rfl refuses stop'
          have again := refuses stop' _ (Nat.lt_succ_self _)
          have open'' : nextKind? (first :: others') ≠ some .closing := open'
          simp only [List.singleton_append, nameTail_of_opens opens, callTail, open'', if_false,
            again]
      next => contradiction
  next => contradiction

end

/-- A sign looks one token ahead for the operand that it touches, and goes on with its operand. -/
theorem signed_foresees {operand : Reader Expr} (foresees : Foresees operand) (token : Token)
    : Foresees fun stop => signed (operand stop) token := by
  intro stop tokens e rest read
  dsimp only [signed] at read
  split at read
  · contradiction
  next op found =>
    split at read
    · contradiction
    next inside tail taken =>
      obtain ⟨rfl, rfl⟩ : .unary op inside = e ∧ tail = rest := by simpa using read
      obtain ⟨used, rfl, same⟩ := foresees taken
      refine ⟨used, rfl, ?_⟩
      rintro next tail rfl stop' tail'
      have found' : signOf? token (used ++ next :: tail') = some op := by
        cases used <;> exact found
      simp [signed, found', same next tail rfl stop' tail']

/-- The operand behind a sign is refused. -/
theorem signed_refused {room stop : Nat} {operand : Reader Expr}
    (ahead : LooksAhead operand (FitsOperand room)) {token : Token} {tokens : List Token}
    {error : SyntaxError} {op : UnaryOp} (kind : token.kind = .operator)
    (found : signOf? token tokens = some op) (refused : operand stop tokens = .error error)
    : Refused stop error (fun list => FitsOperand (room + 1) (token :: list))
        (fun list => ∀ stop', signed (operand stop') token list = .error error)
        tokens := by
  obtain ⟨symbol, touching⟩ := signOf?_eq_some found
  refine (ahead.refuses refused).behind [] 0 ?_ ?_
  · rintro list behind start ⟨e, depth, single, fits⟩
    obtain ⟨first, others, rfl, -⟩ := single.head
    refine ⟨.unary op e, depth + 1, ?_, Nat.succ_le_succ fits⟩
    have touches : op = .keep → token.Touches (first :: others) := by
      intro kept
      obtain ⟨next, rest, rfl, begins⟩ := touching kept
      exact ⟨first, others, rfl, (start (List.cons_ne_nil _ _)).trans begins⟩
    simpa [closings] using .sign ⟨kind, symbol⟩ touches single
  · rintro first others others' rfl refuses stop'
    have found' : signOf? token (first :: others') = some op := found
    simp [signed, found', refuses stop']

/-- Only a plus sign may or may not come before an operand. -/
theorem signOf?_eq_none {token : Token} {tokens : List Token} (kind : token.kind = .operator)
    (plain : ¬ token.Writes "+") (unread : signOf? token tokens = none) (tokens' : List Token)
    : signOf? token tokens' = none := by
  unfold signOf? at unread ⊢
  split
  next kept => exact absurd ⟨kind, UnaryOp.ofSymbol?_eq_some_iff.mp kept⟩ plain
  next other =>
    split at unread
    next kept => exact absurd kept other
    next => exact unread

-----------------------------------------------------------------------------------------
-- Levels
-----------------------------------------------------------------------------------------

/-- A parser that leaves what stands behind a token to another one foresees as much as that. -/
theorem Foresees.behind {α : Type} {reader part : Reader α} {token : Token}
    (foresees : Foresees part)
    (leaves : ∀ stop rest, reader stop (token :: rest) = part stop rest)
    {stop : Nat} {tokens rest : List Token} {x : α}
    (read : reader stop (token :: tokens) = .ok (x, rest))
    : ∃ used,
        token :: tokens = used ++ rest
        ∧ ∀ next tail,
            rest = next :: tail
            → ∀ stop' tail', reader stop' (used ++ next :: tail') = .ok (x, next :: tail') := by
  obtain ⟨used, rfl, same⟩ := foresees ((leaves stop tokens).symm.trans read)
  refine ⟨token :: used, rfl, fun next tail rest stop' tail' => ?_⟩
  exact (leaves stop' _).trans (same next tail rest stop' tail')

section
variable {stop room : Nat} {token : Token}

theorem primary_number {number : Float} (kind : token.kind = .number number) (tokens : List Token)
    : (level stop room).primary (token :: tokens) = .ok (.number number, tokens) := by
  simp [level_primary, primary, kind]

theorem primary_name (kind : token.kind = .name) (tokens : List Token)
    : (level stop room).primary (token :: tokens)
      = nameTail ((level stop room).expression 0) stop token.word tokens := by
  simp [level_primary, primary, kind]

theorem primary_opening (kind : token.kind = .opening) (tokens : List Token)
    : (level stop room).primary (token :: tokens)
      = groupTail ((level stop room).expression 0) stop tokens := by
  simp [level_primary, primary, kind]

theorem primary_operator (kind : token.kind = .operator) (tokens : List Token)
    : (level stop room).primary (token :: tokens) = afterSign stop room token tokens := by
  simp [level_primary, primary, kind]

end

section
variable {room : Nat}
  (inner : LooksAhead (fun stop => (level stop room).expression 0) (FitsPhrase room 0))
  (operands : ∀ inside,
    room = inside + 1 → LooksAhead (fun stop => (level stop inside).primary) (FitsOperand inside))

include operands

theorem afterSign_foresees (token : Token) : Foresees fun stop => afterSign stop room token := by
  cases room with
  | zero =>
      intro stop tokens e rest read
      contradiction
  | succ inside => exact signed_foresees (operands inside rfl).accepts token

/-- A token that is no sign is refused, and so is a sign where no level can open for its operand. -/
theorem afterSign_refused {stop : Nat} {token : Token} {tokens : List Token} {error : SyntaxError}
    (kind : token.kind = .operator) (refused : afterSign stop room token tokens = .error error)
    : Refused stop error (FitsOperand room)
        (fun list => ∀ stop', (level stop' room).primary list = .error error)
        (token :: tokens) := by
  cases room with
  | zero =>
      obtain rfl := Except.error.inj refused
      refine .here rfl (absurd rfl) ?_
      rintro next tail tail' ⟨⟩ - stop'
      exact primary_operator kind tail'
  | succ inside =>
      dsimp only [afterSign, signed] at refused
      split at refused
      next unread =>
        obtain rfl := Except.error.inj refused
        refine .here rfl (fun _ => ⟨true, 0, fitsOperand_name _ _⟩) ?_
        rintro next tail tail' ⟨⟩ plain stop'
        rw [primary_operator kind, afterSign, signed, signOf?_eq_none kind plain unread]
      next op found =>
        split at refused
        next error' taken =>
          obtain rfl : error' = error := by simpa using refused
          refine (signed_refused (operands inside rfl) kind found taken).behind [token] 0 ?_ ?_
          · rintro list behind - derives
            simpa [closings] using derives
          · rintro first others others' _ refuses stop'
            exact (primary_operator kind _).trans (refuses stop')
        next => contradiction

include inner

/-- Operands are read by their first token, and then by what stands behind it. -/
theorem primary_foresees : Foresees fun stop => (level stop room).primary := by
  intro stop tokens e rest read
  cases tokens with
  | nil => simp [level_primary, primary, refuse] at read
  | cons token tokens =>
      cases kind : token.kind with
      | number number =>
          obtain ⟨rfl, rfl⟩ : .number number = e ∧ tokens = rest := by
            simpa [primary_number kind] using read
          refine ⟨[token], rfl, ?_⟩
          rintro next tail rfl stop' tail'
          exact primary_number kind _
      | name =>
          exact Foresees.behind (nameTail_foresees inner token.word) (fun _ => primary_name kind)
            read
      | opening =>
          exact Foresees.behind (groupTail_foresees inner) (fun _ => primary_opening kind) read
      | operator =>
          exact Foresees.behind (afterSign_foresees operands token)
            (fun _ => primary_operator kind) read
      | closing | comma | ending | other _ => simp [level_primary, primary, kind, refuse] at read

/-- An operand is refused behind its first token, or at a token that begins none. -/
theorem primary_refused {stop : Nat} {tokens : List Token} {error : SyntaxError}
    (refused : (level stop room).primary tokens = .error error)
    : Refused stop error (FitsOperand room)
        (fun list => ∀ stop', (level stop' room).primary list = .error error)
        tokens := by
  have reads : ∀ stop, ReadsPhrase room ((level stop room).expression 0) := by
    intro stop tokens e rest read
    obtain ⟨used, depth, same, phrase, fits, -⟩ :=
      (level_sound stop room).expression (Nat.zero_le _) read
    exact ⟨used, depth, same, phrase, fits⟩
  cases tokens with
  | nil =>
      obtain rfl : ⟨.missingOperand, stop⟩ = error := by
        simpa [level_primary, primary, refuse, nextStart] using refused
      exact .here rfl (fun _ => ⟨true, 0, fitsOperand_name _ _⟩) (by simp)
  | cons token tokens =>
      cases kind : token.kind with
      | number value => simp [primary_number kind] at refused
      | name =>
          rw [primary_name kind] at refused
          refine (nameTail_refused inner reads kind refused).behind [token] 0 ?_ ?_
          · rintro list behind - derives
            simpa [closings] using derives
          · rintro first others others' _ refuses stop'
            exact (primary_name kind _).trans (refuses stop')
      | opening =>
          rw [primary_opening kind] at refused
          refine (groupTail_refused inner reads refused).behind [token] 0 ?_ ?_
          · rintro list behind - ⟨listed, closing, e, depth, rfl, closes, phrase, fits⟩
            exact ⟨e, depth + 1, by simpa [closings] using .group kind closes phrase, fits⟩
          · rintro first others others' _ refuses stop'
            exact (primary_opening kind _).trans (refuses stop')
      | operator =>
          exact afterSign_refused operands kind ((primary_operator kind _).symm.trans refused)
      | closing | comma | ending | other _ =>
          refine .here ?_ (fun _ => ⟨true, 0, fitsOperand_name _ _⟩) ?_
          · simp [level_primary, primary, kind, refuse] at refused
            simp [← refused, nextStart]
          · rintro next tail tail' ⟨⟩ - stop'
            simpa [level_primary, primary, kind, refuse, nextStart] using refused

theorem primary_looksAhead
    : LooksAhead (fun stop => (level stop room).primary) (FitsOperand room) :=
  ⟨primary_foresees inner operands, primary_refused inner operands⟩

end

section
variable {room : Nat}
  (operands : LooksAhead (fun stop => (level stop room).primary) (FitsOperand room))
  (ahead : ∀ op : BinaryOp,
    LooksAhead (fun stop => (level stop room).expression op.rightStrength)
      (FitsPhrase room op.rightTier))

include operands ahead

/-- Expressions are read by their first operand, and then by the operators behind it. -/
theorem expression_foresees (least : Nat)
    : Foresees fun stop => (level stop (room + 1)).expression least := by
  intro stop tokens e rest read
  cases taken : (level stop room).primary tokens with
  | error error => simp [level, taken] at read
  | ok result =>
      obtain ⟨left, tail⟩ := result
      obtain ⟨used, rfl, same⟩ := operands.accepts taken
      obtain ⟨more, rfl, sameMore⟩ :=
        climb_foresees ahead least left ((level_expression taken).symm.trans read)
      refine ⟨used ++ more, by simp, ?_⟩
      intro next tail begins stop' tail'
      have again := foreseen_before same begins stop' tail'
      rw [List.append_assoc]
      exact (level_expression again).trans (sameMore next tail begins stop' tail')

/-- An expression is refused in its first operand, or behind an operator. -/
theorem expression_refused {stop least : Nat} (small : least ≤ 8) {tokens : List Token}
    {error : SyntaxError} (refused : (level stop (room + 1)).expression least tokens = .error error)
    : Refused stop error (FitsPhrase (room + 1) (least - 1))
        (fun list => ∀ stop', (level stop' (room + 1)).expression least list = .error error)
        tokens := by
  have below : least - 1 ≤ tiers.length := by
    simp only [tiers, List.length]
    omega
  cases taken : (level stop room).primary tokens with
  | error error' =>
      obtain rfl : error' = error := by simpa [level, taken] using refused
      refine (operands.refuses taken).behind [] 0 ?_ ?_
      · rintro list behind - ⟨e, depth, single, fits⟩
        have phrase := (Phrase.operand single).loosen below
        exact ⟨e, depth, by simpa [closings] using phrase, Nat.succ_le_succ fits⟩
      · intro first others others' _ refuses stop'
        have again := refuses stop'
        simp only [List.nil_append, level, again]
  | ok result =>
      obtain ⟨left, tail⟩ := result
      obtain ⟨used, rfl, same⟩ := operands.accepts taken
      obtain ⟨used', depth, same', single, fits⟩ := (level_sound stop room).primary taken
      obtain rfl := List.append_cancel_right same'
      -- every operator takes a single operand on its left
      have attaches : Attaches tiers.length tail := by
        intro op _ _
        cases op <;> decide
      have later := climb_refused ahead (.operand single) fits below attaches
        ((level_expression taken).symm.trans refused)
      refine later.behind used 0 ?_ ?_
      · rintro list behind - derives
        simpa [closings] using derives
      · rintro first others others' rfl refuses stop'
        exact (level_expression (same first others rfl stop' others')).trans (refuses stop')

end

/-- All levels look one token ahead, by induction on the room that is left. -/
theorem level_looksAhead (room : Nat)
    : (∀ least,
        least ≤ 8
        → LooksAhead (fun stop => (level stop room).expression least)
            (FitsPhrase room (least - 1)))
      ∧ LooksAhead (fun stop => (level stop room).primary) (FitsOperand room) := by
  induction room with
  | zero =>
      have expressions : ∀ least,
          LooksAhead (fun stop => (level stop 0).expression least) (FitsPhrase 0 (least - 1)) := by
        intro least
        constructor
        · intro stop tokens e rest read
          contradiction
        · intro stop tokens error refused
          obtain rfl := Except.error.inj refused
          refine .here rfl (absurd rfl) ?_
          rintro next tail tail' rfl - stop'
          rfl
      exact ⟨fun least _ => expressions least, primary_looksAhead (expressions 0) (by simp)⟩
  | succ room ih =>
      obtain ⟨expressions, operands⟩ := ih
      have ahead : ∀ op : BinaryOp,
          LooksAhead (fun stop => (level stop room).expression op.rightStrength)
            (FitsPhrase room op.rightTier) :=
        fun op => expressions op.rightStrength (by cases op <;> decide)
      have expressions' : ∀ least,
          least ≤ 8
          → LooksAhead (fun stop => (level stop (room + 1)).expression least)
              (FitsPhrase (room + 1) (least - 1)) :=
        fun least small =>
          ⟨expression_foresees operands ahead least, expression_refused operands ahead small⟩
      refine ⟨expressions', primary_looksAhead (expressions' 0 (Nat.zero_le 8)) ?_⟩
      rintro inside ⟨⟩
      exact operands

end Wavetable.Formula
