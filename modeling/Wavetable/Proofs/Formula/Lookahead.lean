import Wavetable.Proofs.Formula.Parsing

/-!
How far the parser looks. What it accepts rests on the tokens that it takes and on the next one,
and a refusal rests on the tokens up to the one that it points to. The tokens before that place go
on to a formula: an operand, where one is missing, and closing parentheses complete them.
-/

namespace Wavetable.Formula

/-- Closing parentheses from an offset on. -/
def closings (place : Nat) : Nat → List Token
  | 0 => []
  | count + 1 => ⟨.closing, ")", place, ")"⟩ :: closings (place + 1) count

/-- Tokens that complete a formula from an offset on: an operand, if one is missing, and closing
parentheses.
-/
def completion (missing : Bool) (place count : Nat) : List Token :=
  if missing then ⟨.name, "x", place, "x"⟩ :: closings (place + 1) count
  else closings place count

theorem closings_add (place count more : Nat)
    : closings place (count + more) = closings place count ++ closings (place + count) more := by
  induction count generalizing place with
  | zero => simp [closings]
  | succ count ih =>
      rw [Nat.succ_add, closings, closings, ih, List.cons_append, Nat.succ_add_eq_add_succ]

theorem completion_add (missing : Bool) (place count more : Nat)
    : ∃ behind,
        completion missing place (count + more)
          = completion missing place count ++ closings behind more := by
  cases missing with
  | false => exact ⟨_, closings_add place count more⟩
  | true => exact ⟨_, congrArg (_ :: ·) (closings_add (place + 1) count more)⟩

/-- A completion begins at its offset. -/
theorem nextStart_completion {missing : Bool} {stop place count : Nat}
    (some : completion missing place count ≠ [])
    : nextStart stop (completion missing place count) = place := by
  cases missing with
  | true => rfl
  | false =>
      cases count with
      | zero => contradiction
      | succ count => rfl

/-- A parser for tokens of which the last ends at a given offset. -/
abbrev Reader (α : Type) :=
  Nat → List Token → Except SyntaxError (α × List Token)

/-- What a parser accepts rests on the tokens that it takes and on the next one. -/
def Foresees {α : Type} (reader : Reader α) : Prop :=
  ∀ {stop tokens x rest},
    reader stop tokens = .ok (x, rest)
    → ∃ used,
        tokens = used ++ rest
        ∧ ∀ next tail,
            rest = next :: tail
            → ∀ stop' tail', reader stop' (used ++ next :: tail') = .ok (x, next :: tail')

/-- An error points to the first of the tokens behind some others. If it is not for nesting, the
tokens before it go on to what a parser derives. Unless it points to a plus sign, all token lists
are refused that go on behind the token in another way.
-/
structure Refusal (stop : Nat) (error : SyntaxError) (derives refuses : List Token → Prop)
    (before after : List Token)
    : Prop where
  place : error.position = nextStart stop after
  viable
    : error.cause ≠ .tooDeep
      → ∃ missing count, derives (before ++ completion missing error.position count)
  settled
    : ∀ next tail,
        after = next :: tail
        → ¬ next.Writes "+"
        → ∀ tail', refuses (before ++ next :: tail')

/-- Tokens are refused somewhere among them. -/
def Refused (stop : Nat) (error : SyntaxError) (derives refuses : List Token → Prop)
    (tokens : List Token)
    : Prop :=
  ∃ before after, tokens = before ++ after ∧ Refusal stop error derives refuses before after

/-- A parser for what some predicate derives looks one token ahead. -/
structure LooksAhead {α : Type} (reader : Reader α) (derives : List Token → Prop) : Prop where
  accepts : Foresees reader
  refuses
    : ∀ {stop tokens error},
        reader stop tokens = .error error
        → Refused stop error derives (fun list => ∀ stop', reader stop' list = .error error) tokens

/-- What is read does not change with what stands behind the next token, nor where that is the next
one behind some tokens more.
-/
theorem foreseen_before {α : Type} {reader : Reader α} {used more rest : List Token} {x : α}
    (same : ∀ next tail,
      more ++ rest = next :: tail
      → ∀ stop' tail', reader stop' (used ++ next :: tail') = .ok (x, next :: tail'))
    {next : Token} {tail : List Token} (begins : rest = next :: tail) (stop' : Nat)
    (tail' : List Token)
    : reader stop' (used ++ (more ++ next :: tail')) = .ok (x, more ++ next :: tail') := by
  subst begins
  cases more with
  | nil => exact same next tail rfl stop' tail'
  | cons first others => exact same first _ rfl stop' _

-----------------------------------------------------------------------------------------
-- Refusals of a part and of the whole
-----------------------------------------------------------------------------------------

section
variable {stop : Nat} {error : SyntaxError} {derives refuses derives' refuses' : List Token → Prop}
  {tokens : List Token}

/-- The first token is refused, whatever stands behind it. -/
theorem Refused.here (place : error.position = nextStart stop tokens)
    (viable : error.cause ≠ .tooDeep
      → ∃ missing count, derives (completion missing error.position count))
    (settled : ∀ next tail tail',
      tokens = next :: tail → ¬ next.Writes "+" → refuses (next :: tail'))
    : Refused stop error derives refuses tokens :=
  ⟨[], tokens, rfl, place, viable, fun next tail same plain tail' =>
    settled next tail tail' same plain⟩

/-- A refusal of what stands behind some tokens is one of the whole. What completes the part
completes the whole with some more closing parentheses.
-/
theorem Refused.behind (front : List Token) (more : Nat)
    (refused : Refused stop error derives refuses tokens)
    (completes : ∀ list behind,
      (list ≠ [] → nextStart stop list = nextStart stop tokens)
      → derives list
      → derives' (front ++ (list ++ closings behind more)))
    (settles : ∀ first others others',
      tokens = first :: others
      → refuses (first :: others')
      → refuses' (front ++ first :: others'))
    : Refused stop error derives' refuses' (front ++ tokens) := by
  obtain ⟨before, after, rfl, place, viable, settled⟩ := refused
  refine ⟨front ++ before, after, by simp, place, fun shallow => ?_, ?_⟩
  · obtain ⟨missing, count, derived⟩ := viable shallow
    obtain ⟨behind, same⟩ := completion_add missing error.position count more
    refine ⟨missing, count + more, ?_⟩
    rw [same, List.append_assoc, ← List.append_assoc before]
    refine completes _ behind (fun some => ?_) derived
    cases before with
    | nil => exact (nextStart_completion some).trans place
    | cons first rest => rfl
  · rintro next tail rfl plain tail'
    rw [List.append_assoc]
    have refuses := settled next tail rfl plain tail'
    cases before with
    | nil => exact settles next tail tail' rfl refuses
    | cons first rest => exact settles first _ _ rfl refuses

/-- The token behind what was read is refused. -/
theorem Refused.next {used rest : List Token} (count : Nat)
    (place : error.position = nextStart stop rest)
    (completes : derives (used ++ closings error.position count))
    (settles : ∀ next tail tail', rest = next :: tail → refuses (used ++ next :: tail'))
    : Refused stop error derives refuses (used ++ rest) :=
  ⟨used, rest, rfl, place, fun _ => ⟨false, count, completes⟩,
    fun next tail same _ tail' => settles next tail tail' same⟩

theorem Refused.mono (refused : Refused stop error derives refuses tokens)
    (weaker : ∀ list, derives list → derives' list) (weaker' : ∀ list, refuses list → refuses' list)
    : Refused stop error derives' refuses' tokens := by
  obtain ⟨before, after, same, place, viable, settled⟩ := refused
  refine ⟨before, after, same, place, fun shallow => ?_, fun next tail same plain tail' =>
    weaker' _ (settled next tail same plain tail')⟩
  obtain ⟨missing, count, derived⟩ := viable shallow
  exact ⟨missing, count, weaker _ derived⟩

end

/-- A phrase that fits into levels of which one is its own. -/
def FitsPhrase (room tier : Nat) (tokens : List Token) : Prop :=
  ∃ e depth, Phrase tier tokens e depth ∧ depth + 1 ≤ room

def FitsOperand (room : Nat) (tokens : List Token) : Prop :=
  ∃ e depth, Operand tokens e depth ∧ depth ≤ room

/-- An operand that is missing can be a name. -/
theorem fitsOperand_name (room place : Nat) : FitsOperand room (completion true place 0) :=
  ⟨_, 0, .name rfl, Nat.zero_le room⟩

-----------------------------------------------------------------------------------------
-- Operators between operands
-----------------------------------------------------------------------------------------

/-- Whether an operator comes next is told by the next token. -/
theorem Stops.of_head {least : Nat} {next : Token} {tail : List Token}
    (stops : Stops least (next :: tail)) (tail' : List Token)
    : Stops least (next :: tail') := by
  intro op rest found
  obtain ⟨_, same, written⟩ := nextBinary?_eq_some_iff.mp found
  obtain ⟨rfl, rfl⟩ := List.cons.inj same
  exact stops op tail (nextBinary?_of_writes written)

theorem stops_or_operator (least : Nat) (tokens : List Token)
    : Stops least tokens
      ∨ ∃ op : BinaryOp, ∃ token tail,
          tokens = token :: tail ∧ token.Writes op.symbol ∧ least ≤ op.strength := by
  by_cases stops : Stops least tokens
  · exact .inl stops
  · simp only [Stops, not_forall, Nat.not_lt] at stops
    obtain ⟨op, tail, found, strong⟩ := stops
    obtain ⟨token, rfl, written⟩ := nextBinary?_eq_some_iff.mp found
    exact .inr ⟨op, token, tail, rfl, written, strong⟩

/-- Climbing fails where a right operand does. -/
theorem climb_of_error {rightOperand : Nat → List Token → Parsed} {least : Nat} {op : BinaryOp}
    {token : Token} {tokens : List Token} {left : Expr} {error : SyntaxError}
    (written : token.Writes op.symbol) (strong : least ≤ op.strength)
    (refused : rightOperand op.rightStrength tokens = .error error)
    : climb rightOperand least (token :: tokens).length left (token :: tokens) = .error error := by
  have notWeak : ¬ op.strength < least := by omega
  simp only [List.length_cons, climb, nextBinary?_of_writes written, notWeak, if_false, refused]

section
variable {room : Nat}
  (ahead : ∀ op : BinaryOp,
    LooksAhead (fun stop => (level stop room).expression op.rightStrength)
      (FitsPhrase room op.rightTier))

include ahead

/-- Climbing looks one token ahead, by induction on the number of tokens. -/
theorem climb_foresees (least : Nat) (left : Expr)
    : Foresees fun stop tokens =>
        climb (level stop room).expression least tokens.length left tokens := by
  intro stop tokens e rest read
  induction size : tokens.length using Nat.strong_induction_on generalizing left tokens with
  | _ size ih =>
    subst size
    rcases stops_or_operator least tokens with stops | ⟨op, token, tail, rfl, written, strong⟩
    · obtain ⟨rfl, rfl⟩ : left = e ∧ tokens = rest := by
        simpa [climb_of_stops stops] using read
      refine ⟨[], rfl, ?_⟩
      rintro next tail rfl stop' tail'
      exact climb_of_stops (stops.of_head tail') _ _
    · cases taken : (level stop room).expression op.rightStrength tail with
      | error error => cases (climb_of_error written strong taken).symm.trans read
      | ok result =>
          obtain ⟨right, tail'⟩ := result
          obtain ⟨used, rfl, sameRight⟩ := (ahead op).accepts taken
          dsimp only at read
          rw [climb_operator (level_shortens stop room) written strong taken] at read
          have shorter : tail'.length < (token :: (used ++ tail')).length := by
            simp only [List.length_cons, List.length_append]
            omega
          obtain ⟨more, rfl, same⟩ := ih _ shorter _ read rfl
          refine ⟨token :: (used ++ more), by simp, ?_⟩
          intro next tail begins stop' tail'
          have again := foreseen_before sameRight begins stop' tail'
          rw [List.cons_append, List.append_assoc]
          exact (climb_operator (level_shortens stop' room) written strong again).trans
            (same next tail begins stop' tail')

/-- Where climbing fails behind a left operand, a right operand does. -/
theorem climb_refused {stop least tier depth : Nat} {left : Expr} {before tokens : List Token}
    {error : SyntaxError} (derived : Phrase tier before left depth) (fits : depth ≤ room)
    (asked : least - 1 ≤ tier) (attaches : Attaches tier tokens)
    (refused : climb (level stop room).expression least tokens.length left tokens = .error error)
    : Refused stop error (fun list => FitsPhrase (room + 1) (least - 1) (before ++ list))
        (fun list => ∀ stop',
          climb (level stop' room).expression least list.length left list = .error error)
        tokens := by
  induction size : tokens.length using Nat.strong_induction_on
    generalizing left before tokens tier depth with
  | _ size ih =>
    subst size
    rcases stops_or_operator least tokens with stops | ⟨op, token, tail, rfl, written, strong⟩
    · cases (climb_of_stops stops _ _).symm.trans refused
    have left' := derived.loosen (attaches op _ (nextBinary?_of_writes written))
    have below : least - 1 ≤ op.tier := by
      unfold BinaryOp.tier
      omega
    cases taken : (level stop room).expression op.rightStrength tail with
    | error error' =>
        obtain rfl : error' = error :=
          Except.error.inj ((climb_of_error written strong taken).symm.trans refused)
        refine ((ahead op).refuses taken).behind [token] 0 ?_ ?_
        · rintro list behind - ⟨right, depth', phrase, fits'⟩
          have joined := (Phrase.binary written left' phrase).loosen below
          exact ⟨.binary op left right, max depth (depth' + 1), by simpa [closings] using joined,
            Nat.succ_le_succ (Nat.max_le.mpr ⟨fits, fits'⟩)⟩
        · intro first others others' _ refuses stop'
          exact climb_of_error written strong (refuses stop')
    | ok result =>
        obtain ⟨right, tail'⟩ := result
        obtain ⟨used, rfl, sameRight⟩ := (ahead op).accepts taken
        obtain ⟨used', depth', same, phrase, fits', stops⟩ :=
          (level_sound stop room).expression (by cases op <;> decide) taken
        obtain rfl := List.append_cancel_right same
        have joined := Phrase.binary written left' phrase
        rw [climb_operator (level_shortens stop room) written strong taken] at refused
        have shorter : tail'.length < (token :: (used ++ tail')).length := by
          simp only [List.length_cons, List.length_append]
          omega
        have later := ih _ shorter joined (Nat.max_le.mpr ⟨fits, fits'⟩) below
          stops.attaches refused rfl
        refine later.behind (token :: used) 0 ?_ ?_
        · rintro list behind - derives
          simpa [closings] using derives
        · rintro first others others' rfl refuses stop'
          have again := sameRight first others rfl stop' others'
          exact (climb_operator (level_shortens stop' room) written strong again).trans
            (refuses stop')

end

end Wavetable.Formula
