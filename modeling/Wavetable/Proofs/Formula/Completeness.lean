import Wavetable.Proofs.Formula.Soundness

/-!
Completeness of the parser. Every phrase that the grammar derives is read to its end where there
is room for its levels, and is refused as too deep where there is not. Hence the grammar is
unambiguous.
-/

namespace Wavetable.Formula

/-- What a level does with an operator before an operand: it opens the next level, if any. -/
def afterSign (stop : Nat) : Nat → Token → List Token → Parsed
  | 0 => fun token _ => .error ⟨.tooDeep, token.start⟩
  | room + 1 => signed (level stop room).primary

/-- Primary expressions are read in the same way on all levels, the last one included. -/
theorem level_primary (stop room : Nat)
    : (level stop room).primary
      = primary ((level stop room).expression 0) (afterSign stop room) stop := by
  cases room <;> rfl

/-- A phrase of a tier can end in front of these tokens: they neither make a call of a name at its
end nor begin with an operator that takes less than the phrase for its left operand.
-/
structure Closes (tier : Nat) (tokens : List Token) : Prop where
  noCall : nextKind? tokens ≠ some .opening
  attaches : Attaches tier tokens

theorem Closes.mono {low high : Nat} {tokens : List Token} (closes : Closes low tokens)
    (below : low ≤ high)
    : Closes high tokens :=
  ⟨closes.noCall, fun op rest found => (closes.attaches op rest found).trans below⟩

theorem Closes.nil (tier : Nat) : Closes tier [] :=
  ⟨by simp [nextKind?], by intro op rest found; simp [nextBinary?] at found⟩

/-- In front of a token that is neither an operator nor an opening parenthesis, any phrase ends. -/
theorem Closes.of_kind {tier : Nat} {token : Token} {tokens : List Token}
    (noOperator : token.kind ≠ .operator) (noOpening : token.kind ≠ .opening)
    : Closes tier (token :: tokens) := by
  refine ⟨by simpa [nextKind?] using noOpening, ?_⟩
  intro op rest found
  obtain ⟨_, same, written⟩ := nextBinary?_eq_some_iff.mp found
  obtain ⟨rfl, rfl⟩ : token = _ ∧ tokens = rest := by simpa using same
  exact absurd written.1 noOperator

theorem Closes.of_writes {op : BinaryOp} {token : Token} {tokens : List Token}
    (written : token.Writes op.symbol)
    : Closes op.leftTier (token :: tokens) := by
  refine ⟨by simp [nextKind?, written.1], ?_⟩
  intro op' rest found
  obtain ⟨rfl, -⟩ : op = op' ∧ tokens = rest := by
    simpa [nextBinary?_of_writes written] using found
  exact le_rfl

/-- What ends a phrase of the tier of an operator ends its right operand too, by comparing
strengths.
-/
theorem Closes.stops {op : BinaryOp} {tokens : List Token} (closes : Closes op.tier tokens)
    : Stops op.rightStrength tokens := by
  intro next rest found
  have bound := closes.attaches next rest found
  revert bound
  cases op <;> cases next <;> decide

/-- Climbing ends where no operator of the strength asked for comes next. -/
theorem climb_of_stops {rightOperand : Nat → List Token → Parsed} {least : Nat}
    {tokens : List Token} (stops : Stops least tokens) (fuel : Nat) (left : Expr)
    : climb rightOperand least fuel left tokens = .ok (left, tokens) := by
  cases fuel with
  | zero => rfl
  | succ fuel =>
      unfold climb
      split
      · rfl
      next op rest found => simp [stops op rest found]

/-- The parser of right operands does not lengthen what it reads. -/
def Shortens (rightOperand : Nat → List Token → Parsed) : Prop :=
  ∀ (op : BinaryOp) {tokens e rest},
    rightOperand op.rightStrength tokens = .ok (e, rest) → rest.length ≤ tokens.length

theorem level_shortens (stop room : Nat) : Shortens (level stop room).expression := by
  intro op tokens e rest read
  obtain ⟨used, _, rfl, -⟩ := (level_sound stop room).expression (by cases op <;> decide) read
  simp

/-- Fuel beyond the number of tokens changes nothing, by induction on the fuel: every operator
takes a token.
-/
theorem climb_fuel {rightOperand : Nat → List Token → Parsed} {least : Nat}
    (shortens : Shortens rightOperand) {fuel fuel' : Nat} {left : Expr} {tokens : List Token}
    (enough : tokens.length ≤ fuel) (enough' : tokens.length ≤ fuel')
    : climb rightOperand least fuel left tokens = climb rightOperand least fuel' left tokens := by
  induction fuel generalizing fuel' left tokens with
  | zero =>
      have empty : tokens = [] := List.length_eq_zero_iff.mp (Nat.le_zero.mp enough)
      subst empty
      simp only [climb_of_stops (Stops.nil least)]
  | succ fuel ih =>
      cases fuel' with
      | zero =>
          have empty : tokens = [] := List.length_eq_zero_iff.mp (Nat.le_zero.mp enough')
          subst empty
          simp only [climb_of_stops (Stops.nil least)]
      | succ fuel' =>
          unfold climb
          split
          · rfl
          next op rest found =>
            obtain ⟨token, rfl, -⟩ := nextBinary?_eq_some_iff.mp found
            split
            · rfl
            · split
              · rfl
              next right rest' read =>
                have shorter := shortens op read
                simp only [List.length_cons] at enough enough'
                exact ih (by omega) (by omega)

/-- Climbing takes an operator of the strength asked for, with the right operand behind it. -/
theorem climb_operator {rightOperand : Nat → List Token → Parsed} {least : Nat} {op : BinaryOp}
    (shortens : Shortens rightOperand) {token : Token} {tokens rest : List Token}
    {left right : Expr} (written : token.Writes op.symbol) (strong : least ≤ op.strength)
    (read : rightOperand op.rightStrength tokens = .ok (right, rest))
    : climb rightOperand least (token :: tokens).length left (token :: tokens)
      = climb rightOperand least rest.length (.binary op left right) rest := by
  have notWeak : ¬ op.strength < least := by omega
  simp only [List.length_cons, climb, nextBinary?_of_writes written, notWeak, if_false, read]
  exact climb_fuel shortens (shortens op read) le_rfl

theorem level_expression {stop room least : Nat} {tokens rest : List Token} {e : Expr}
    (read : (level stop room).primary tokens = .ok (e, rest))
    : (level stop (room + 1)).expression least tokens
      = climb (level stop room).expression least rest.length e rest := by
  simp only [level, read]

/-- The tiers of the operands of an operator that groups to the left, and its strengths. -/
theorem leftward_tiers {tier : Nat} {op : BinaryOp} (placed : op ∈ tiers.getD tier [])
    (ordinary : op ≠ .power)
    : op.tier = tier ∧ op.leftTier = tier ∧ op.strength = tier + 1
      ∧ op.rightStrength = tier + 2 := by
  obtain rfl := mem_tiers_iff.mp placed
  cases op <;> first | decide | contradiction

theorem rightward_tiers {tier : Nat} (placed : BinaryOp.power ∈ tiers.getD tier [])
    : BinaryOp.power.tier = tier ∧ BinaryOp.power.leftTier = tier + 1
      ∧ BinaryOp.power.strength = tier + 1 ∧ BinaryOp.power.rightStrength = tier + 1 := by
  obtain rfl := mem_tiers_iff.mp placed
  decide

/-- Climbing goes on behind a right operand that the level below reads up to the end of the whole
operation.
-/
theorem climb_operation {stop room least : Nat} {op : BinaryOp} {token : Token}
    {second rest : List Token} {left right : Expr} (written : token.Writes op.symbol)
    (asked : least ≤ op.strength) (closes : Closes op.tier rest)
    (read : (level stop (room + 1)).expression op.rightStrength (second ++ rest)
      = climb (level stop room).expression op.rightStrength rest.length right rest)
    : climb (level stop (room + 1)).expression least (token :: (second ++ rest)).length left
        (token :: (second ++ rest))
      = climb (level stop (room + 1)).expression least rest.length (.binary op left right) rest :=
  climb_operator (level_shortens stop (room + 1)) written asked
    (read.trans (climb_of_stops closes.stops _ _))

/-- In front of a token that no phrase goes on with, an expression is read as it is. -/
theorem level_expression_of_kind {stop room : Nat} {tokens rest : List Token} {e : Expr}
    {token : Token} (noOperator : token.kind ≠ .operator) (noOpening : token.kind ≠ .opening)
    (read : Closes 0 (token :: rest)
      → (level stop (room + 1)).expression 0 (tokens ++ token :: rest)
        = climb (level stop room).expression 0 (token :: rest).length e (token :: rest))
    : (level stop (room + 1)).expression 0 (tokens ++ token :: rest) = .ok (e, token :: rest) := by
  refine (read (.of_kind noOperator noOpening)).trans (climb_of_stops ?_ _ _)
  intro op rest' found
  obtain ⟨_, same, written⟩ := nextBinary?_eq_some_iff.mp found
  simp only [List.cons.injEq] at same
  exact absurd (same.1 ▸ written.1) noOperator

/-- A token that touches its operand counts as the operator that it writes. -/
theorem signOf?_of_writes {token : Token} {op : UnaryOp} {tokens rest : List Token} {e : Expr}
    {depth : Nat} (written : token.Writes op.symbol)
    (touching : op = .keep → token.Touches tokens) (operand : Operand tokens e depth)
    : signOf? token (tokens ++ rest) = some op := by
  have found : UnaryOp.ofSymbol? token.word = some op :=
    UnaryOp.ofSymbol?_eq_some_iff.mpr written.2
  obtain ⟨first, others, rfl, noEnd, -⟩ := operand.head
  cases op with
  | negate | invert => simp [signOf?, found]
  | keep =>
      obtain ⟨next, others', same, start⟩ := touching rfl
      obtain ⟨rfl, rfl⟩ : first = next ∧ others = others' := by simpa using same
      simp [signOf?, found, touches, noEnd, start]

theorem nameTail_of_opens {argument : List Token → Parsed} {stop : Nat} {name : String}
    {opening : Token} {tokens : List Token} (opens : opening.kind = .opening)
    : nameTail argument stop name (opening :: tokens) = callTail argument stop name tokens := by
  simp [nameTail, nextKind?, opens]

/-- A call whose arguments are read goes on to them, as no argument begins with the parenthesis that
closes a call without arguments.
-/
theorem callTail_of_arguments {argument : List Token → Parsed} {stop : Nat} {name : String}
    {tokens rest : List Token} {args : List Expr} {depth : Nat}
    (listed : Arguments tokens args depth)
    : callTail argument stop name (tokens ++ rest)
      = (callArgs argument stop name ((tokens ++ rest).length + 1) (tokens ++ rest)).map
          fun (args, rest) => (.call name args, rest) := by
  obtain ⟨first, others, rfl, -, notClosing⟩ := listed.head
  have more : nextKind? (first :: others ++ rest) ≠ some .closing := by
    simpa [nextKind?] using notClosing
  unfold callTail
  rw [if_neg more]
  split <;> simp_all [Except.map]

mutual

/-- A phrase is read to its end, with its tree for the left operand of what comes next. The
induction is on the derivation: the left operand of an operation is climbed over first, and the
operator then takes its right operand from the level below.
-/
theorem Phrase.reads {tier used e depth} (phrase : Phrase tier used e depth) (stop room : Nat)
    {least : Nat} {rest : List Token} (fits : depth ≤ room) (asked : least ≤ tier + 1)
    (closes : Closes tier rest)
    : (level stop (room + 1)).expression least (used ++ rest)
      = climb (level stop room).expression least rest.length e rest := by
  match phrase with
  | .operand single => exact level_expression (single.reads stop room fits closes.noCall)
  | .tighter inner =>
      exact inner.reads stop room fits (by omega) (closes.mono (Nat.le_succ tier))
  | @Phrase.leftward _ op token first second left right depth depth' placed ordinary written
      before behind =>
      obtain ⟨own, leftTier, strength, rightStrength⟩ := leftward_tiers placed ordinary
      obtain ⟨inside, rfl⟩ : ∃ inside, room = inside + 1 := ⟨room - 1, by omega⟩
      -- the operator ends its left operand, and is then the next to be taken
      have ends : Closes tier (token :: (second ++ rest)) := leftTier ▸ .of_writes written
      have readLeft := before.reads stop (inside + 1) (by omega) asked ends
      have readRight := behind.reads stop inside (by omega) rightStrength.le
        (closes.mono (Nat.le_succ tier))
      rw [List.append_assoc, List.cons_append, readLeft]
      exact climb_operation written (by omega) (own ▸ closes) readRight
  | @Phrase.rightward _ token first second left right depth depth' placed written before behind =>
      obtain ⟨own, leftTier, strength, rightStrength⟩ := rightward_tiers placed
      obtain ⟨inside, rfl⟩ : ∃ inside, room = inside + 1 := ⟨room - 1, by omega⟩
      have ends : Closes (tier + 1) (token :: (second ++ rest)) := leftTier ▸ .of_writes written
      have readLeft := before.reads stop (inside + 1) (by omega) (asked.trans (Nat.le_succ _)) ends
      have readRight := behind.reads stop inside (by omega) rightStrength.le closes
      rw [List.append_assoc, List.cons_append, readLeft]
      exact climb_operation written (by omega) (own ▸ closes) readRight

/-- An operand is read with its tree, where no parenthesis behind it makes a call of a name. -/
theorem Operand.reads {used e depth} (operand : Operand used e depth) (stop room : Nat)
    {rest : List Token} (fits : depth ≤ room) (noCall : nextKind? rest ≠ some .opening)
    : (level stop room).primary (used ++ rest) = .ok (e, rest) := by
  match operand with
  | .number kind => simp [level_primary, primary, kind]
  | .name kind => simp [level_primary, primary, kind, nameTail, noCall]
  | .emptyCall named opens closes =>
      simp [level_primary, primary, named, nameTail, callTail, nextKind?, opens, closes]
  | @Operand.call name opening closing tokens args depth named opens closes inner =>
      have read := inner.reads stop room name.word rest ((tokens ++ closing :: rest).length + 1)
        closes fits (by rw [List.length_append]; omega)
      simp only [List.cons_append, List.append_assoc, List.nil_append, level_primary, primary,
        named, nameTail_of_opens opens, callTail_of_arguments inner, read, Except.map]
  | @Operand.group opening closing tokens e depth opens closes inner =>
      obtain ⟨inside, rfl⟩ : ∃ inside, room = inside + 1 := ⟨room - 1, by omega⟩
      have read
          : (level stop (inside + 1)).expression 0 (tokens ++ closing :: rest)
            = .ok (e, closing :: rest) :=
        level_expression_of_kind (by simp [closes]) (by simp [closes])
          (inner.reads stop inside (by omega) (Nat.zero_le _))
      simp [level_primary, primary, opens, groupTail, read, nextKind?, closes]
  | @Operand.sign op token tokens e depth written touching inner =>
      obtain ⟨inside, rfl⟩ : ∃ inside, room = inside + 1 := ⟨room - 1, by omega⟩
      have read := inner.reads stop inside (by omega) noCall
      simp [level_primary, primary, written.1, afterSign, signed,
        signOf?_of_writes written touching inner, read]

/-- Arguments are read up to the closing parenthesis, where there is fuel for their commas. -/
theorem Arguments.reads {used args depth} (listed : Arguments used args depth) (stop room : Nat)
    (name : String) {closing : Token} (rest : List Token) (fuel : Nat)
    (closes : closing.kind = .closing) (fits : depth ≤ room) (enough : used.length < fuel)
    : callArgs ((level stop room).expression 0) stop name fuel (used ++ closing :: rest)
      = .ok (args, rest) := by
  obtain ⟨fuel, rfl⟩ : ∃ less, fuel = less + 1 := ⟨fuel - 1, by omega⟩
  match listed with
  | @Arguments.last tokens e depth inner =>
      obtain ⟨inside, rfl⟩ : ∃ inside, room = inside + 1 := ⟨room - 1, by omega⟩
      have read
          : (level stop (inside + 1)).expression 0 (tokens ++ closing :: rest)
            = .ok (e, closing :: rest) :=
        level_expression_of_kind (by simp [closes]) (by simp [closes])
          (inner.reads stop inside (by omega) (Nat.zero_le _))
      simp [callArgs, read, nextKind?, closes]
  | @Arguments.more comma tokens others e args depth depth' inner separates more =>
      obtain ⟨inside, rfl⟩ : ∃ inside, room = inside + 1 := ⟨room - 1, by omega⟩
      have read
          : (level stop (inside + 1)).expression 0 (tokens ++ comma :: (others ++ closing :: rest))
            = .ok (e, comma :: (others ++ closing :: rest)) :=
        level_expression_of_kind (by simp [separates]) (by simp [separates])
          (inner.reads stop inside (by omega) (Nat.zero_le _))
      have shorter : others.length < fuel := by
        simp only [List.length_append, List.length_cons] at enough
        omega
      have readMore := more.reads stop (inside + 1) name rest fuel closes (by omega) shorter
      simp [callArgs, read, nextKind?, separates, readMore]

end

/-- The result is the error that levels are open beyond the limit. -/
def TooDeep {α : Type} (result : Except SyntaxError α) : Prop :=
  ∃ position, result = .error ⟨.tooDeep, position⟩

/-- An operation is too deep where its right operand is. -/
theorem overflows_operation {stop room least : Nat} {op : BinaryOp} {token : Token}
    {first tail : List Token} {left : Expr} (written : token.Writes op.symbol)
    (strong : least ≤ op.strength)
    (readLeft : (level stop (room + 1)).expression least (first ++ token :: tail)
      = climb (level stop room).expression least (token :: tail).length left (token :: tail))
    (deep : TooDeep ((level stop room).expression op.rightStrength tail))
    : TooDeep ((level stop (room + 1)).expression least (first ++ token :: tail)) := by
  obtain ⟨position, read⟩ := deep
  refine ⟨position, readLeft.trans ?_⟩
  have notWeak : ¬ op.strength < least := by omega
  simp only [List.length_cons, climb, nextBinary?_of_writes written, notWeak, if_false, read]

mutual

/-- A phrase whose levels do not fit is refused as too deep. By induction on the derivation; what
comes before the first level too many fits, and is read.
-/
theorem Phrase.overflows {tier used e depth} (phrase : Phrase tier used e depth) (stop room : Nat)
    {least : Nat} {rest : List Token} (beyond : room ≤ depth) (asked : least ≤ tier + 1)
    (closes : Closes tier rest)
    : TooDeep ((level stop room).expression least (used ++ rest)) := by
  cases room with
  | zero => exact ⟨_, rfl⟩
  | succ room =>
      match phrase with
      | .operand single =>
          obtain ⟨position, read⟩ := single.overflows stop room beyond closes.noCall
          exact ⟨position, by simp [level, read]⟩
      | .tighter inner =>
          exact inner.overflows stop (room + 1) beyond (by omega) (closes.mono (Nat.le_succ tier))
      | @Phrase.leftward _ op token first second left right depth depth' placed ordinary written
          before behind =>
          obtain ⟨own, leftTier, strength, rightStrength⟩ := leftward_tiers placed ordinary
          have ends : Closes tier (token :: (second ++ rest)) := leftTier ▸ .of_writes written
          rw [List.append_assoc, List.cons_append]
          -- where the left operand fits, it is read, and the right one overflows
          rcases Nat.lt_or_ge room depth with deep | fits
          · exact before.overflows stop (room + 1) deep asked ends
          · exact overflows_operation written (by omega) (before.reads stop room fits asked ends)
              (behind.overflows stop room (by omega) rightStrength.le
                (closes.mono (Nat.le_succ tier)))
      | @Phrase.rightward _ token first second left right depth depth' placed written
          before behind =>
          obtain ⟨own, leftTier, strength, rightStrength⟩ := rightward_tiers placed
          have ends : Closes (tier + 1) (token :: (second ++ rest)) := leftTier ▸ .of_writes written
          rw [List.append_assoc, List.cons_append]
          rcases Nat.lt_or_ge room depth with deep | fits
          · exact before.overflows stop (room + 1) deep (asked.trans (Nat.le_succ _)) ends
          · exact overflows_operation written (by omega)
              (before.reads stop room fits (asked.trans (Nat.le_succ _)) ends)
              (behind.overflows stop room (by omega) rightStrength.le closes)

theorem Operand.overflows {used e depth} (operand : Operand used e depth) (stop room : Nat)
    {rest : List Token} (beyond : room < depth) (noCall : nextKind? rest ≠ some .opening)
    : TooDeep ((level stop room).primary (used ++ rest)) := by
  match operand with
  -- these open no level
  | .number _ | .name _ | .emptyCall _ _ _ => omega
  | @Operand.call name opening closing tokens args depth named opens closes inner =>
      obtain ⟨position, read⟩ := inner.overflows stop room name.word rest
        ((tokens ++ closing :: rest).length + 1) closes beyond (by rw [List.length_append]; omega)
      refine ⟨position, ?_⟩
      simp only [List.cons_append, List.append_assoc, List.nil_append, level_primary, primary,
        named, nameTail_of_opens opens, callTail_of_arguments inner, read, Except.map]
  | @Operand.group opening closing tokens e depth opens closes inner =>
      have ends : Closes 0 (closing :: rest) := .of_kind (by simp [closes]) (by simp [closes])
      obtain ⟨position, read⟩ := inner.overflows stop room (by omega) (Nat.zero_le _) ends
      exact ⟨position, by simp [level_primary, primary, opens, groupTail, read]⟩
  | @Operand.sign op token tokens e depth written touching inner =>
      cases room with
      | zero => exact ⟨token.start, by simp [level_primary, primary, written.1, afterSign]⟩
      | succ inside =>
          obtain ⟨position, read⟩ := inner.overflows stop inside (by omega) noCall
          refine ⟨position, ?_⟩
          simp [level_primary, primary, written.1, afterSign, signed,
            signOf?_of_writes written touching inner, read]

theorem Arguments.overflows {used args depth} (listed : Arguments used args depth)
    (stop room : Nat) (name : String) {closing : Token} (rest : List Token) (fuel : Nat)
    (closes : closing.kind = .closing) (beyond : room < depth) (enough : used.length < fuel)
    : TooDeep (callArgs ((level stop room).expression 0) stop name fuel
        (used ++ closing :: rest)) := by
  obtain ⟨fuel, rfl⟩ : ∃ less, fuel = less + 1 := ⟨fuel - 1, by omega⟩
  match listed with
  | @Arguments.last tokens e depth inner =>
      have ends : Closes 0 (closing :: rest) := .of_kind (by simp [closes]) (by simp [closes])
      obtain ⟨position, read⟩ := inner.overflows stop room (by omega) (Nat.zero_le _) ends
      exact ⟨position, by simp [callArgs, read]⟩
  | @Arguments.more comma tokens others e args depth depth' inner separates more =>
      have ends : Closes 0 (comma :: (others ++ closing :: rest)) :=
        .of_kind (by simp [separates]) (by simp [separates])
      -- where the first argument fits, it is read, and one of the others overflows
      rcases Nat.lt_or_ge depth room with fits | deep
      · obtain ⟨inside, rfl⟩ : ∃ inside, room = inside + 1 := ⟨room - 1, by omega⟩
        have read
            : (level stop (inside + 1)).expression 0
                (tokens ++ comma :: (others ++ closing :: rest))
              = .ok (e, comma :: (others ++ closing :: rest)) :=
          level_expression_of_kind (by simp [separates]) (by simp [separates])
            (inner.reads stop inside (by omega) (Nat.zero_le _))
        have shorter : others.length < fuel := by
          simp only [List.length_append, List.length_cons] at enough
          omega
        obtain ⟨position, readMore⟩ := more.overflows stop (inside + 1) name rest fuel closes
          (by omega) shorter
        exact ⟨position, by simp [callArgs, read, nextKind?, separates, readMore]⟩
      · obtain ⟨position, read⟩ := inner.overflows stop room deep (Nat.zero_le _) ends
        exact ⟨position, by simp [callArgs, read]⟩

end

end Wavetable.Formula
