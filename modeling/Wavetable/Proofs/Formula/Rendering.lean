import Wavetable.Proofs.Formula.Printing
import Wavetable.Proofs.Number.ReadBack
import Wavetable.Proofs.Number.Unsigned

/-!
The text of an expression, scanned. Each piece of it is one lexeme, whatever stands behind it
there, and the tokens of all pieces are those of an operand with the tree of the expression.
-/

namespace Wavetable.Formula

open Float.Model (UnpackedFloat)

/-- The tokens of a text from an offset on. -/
def scanAt (start : Nat) (cs : List Char) : Except SyntaxError (List Token) :=
  scanFrom start cs.length cs

/-- Fuel for every character is enough, by induction on the fuel. -/
theorem scanFrom_fuel {fuel fuel' : Nat} {cs : List Char} (start : Nat) (enough : cs.length ≤ fuel)
    (enough' : cs.length ≤ fuel')
    : scanFrom start fuel cs = scanFrom start fuel' cs := by
  induction fuel generalizing fuel' start cs with
  | zero =>
      obtain rfl := List.length_eq_zero_iff.mp (Nat.le_zero.mp enough)
      cases fuel' <;> rfl
  | succ fuel ih =>
      cases cs with
      | nil => cases fuel' <;> rfl
      | cons first rest =>
          obtain ⟨fuel', rfl⟩ : ∃ more, fuel' = more + 1 := ⟨fuel' - 1, by simp at enough'; omega⟩
          unfold scanFrom
          cases found : lexemeAt? first rest with
          | none => rfl
          | some lexeme =>
              -- every lexeme takes a character, so that either fuel is enough for the rest
              have taken := lexemeAt?_length_pos found
              have shorter : ((first :: rest).drop lexeme.length).length ≤ rest.length := by
                rw [List.length_drop, List.length_cons]
                omega
              simp only [List.length_cons] at enough enough'
              dsimp only
              rw [ih (start + lexeme.length) (shorter.trans (Nat.le_of_succ_le_succ enough))
                (shorter.trans (Nat.le_of_succ_le_succ enough'))]

/-- A text is scanned to some tokens, whatever the text behind it is scanned to. -/
def Scans (start : Nat) (cs tail : List Char) (tokens : List Token) : Prop :=
  scanAt start (cs ++ tail) = (scanAt (start + cs.length) tail).map (tokens ++ ·)

/-- Texts that follow one another are scanned one after the other. -/
theorem Scans.append {start cs cs' tail tokens tokens'}
    (scans : Scans start cs (cs' ++ tail) tokens)
    (scans' : Scans (start + cs.length) cs' tail tokens')
    : Scans start (cs ++ cs') tail (tokens ++ tokens') := by
  unfold Scans at *
  rw [List.append_assoc, scans, scans', List.length_append, Nat.add_assoc]
  cases scanAt (start + (cs.length + cs'.length)) tail with
  | error error => rfl
  | ok others => simp [Except.map]

theorem Scans.nil (start : Nat) (tail : List Char) : Scans start [] tail [] := by
  unfold Scans
  cases scanned : scanAt start tail <;> simp [scanned, Except.map]

/-- A text that is one lexeme is scanned to its token, if it has one. -/
theorem Scans.lexeme {start tail token?} (kind : LexemeClass) (first : Char) (rest : List Char)
    (found : lexemeAt? first (rest ++ tail) = some ⟨kind, 1 + rest.length⟩)
    (tokenized : tokenOf kind start (first :: rest) = .ok token?)
    : Scans start (first :: rest) tail token?.toList := by
  have taken : (first :: (rest ++ tail)).take (1 + rest.length) = first :: rest := by
    rw [Nat.add_comm, List.take_succ_cons, List.take_left]
  have left : (first :: (rest ++ tail)).drop (1 + rest.length) = tail := by
    rw [Nat.add_comm, List.drop_succ_cons, List.drop_left]
  have fuel : tail.length ≤ (rest ++ tail).length := by
    rw [List.length_append]
    omega
  unfold Scans scanAt
  rw [List.cons_append, List.length_cons, scanFrom, found]
  dsimp only
  rw [taken, left, tokenized, scanFrom_fuel _ fuel (Nat.le_refl _), List.length_cons,
    Nat.add_comm 1]
  cases scanFrom (start + (rest.length + 1)) tail.length tail <;> rfl

theorem Scans.token {start tail token} (kind : LexemeClass) (first : Char) (rest : List Char)
    (found : lexemeAt? first (rest ++ tail) = some ⟨kind, 1 + rest.length⟩)
    (tokenized : tokenOf kind start (first :: rest) = .ok (some token))
    : Scans start (first :: rest) tail [token] :=
  Scans.lexeme kind first rest found tokenized

/-- No run of characters within a set goes on into a text. -/
def Ends (inside : Char → Bool) (tail : List Char) : Prop :=
  ∀ c ∈ tail.head?, inside c = false

/-- A run ends where a text behind it begins with another character. -/
theorem runLength_append {inside : Char → Bool} {cs tail : List Char}
    (within : ∀ c ∈ cs, inside c = true) (ends : Ends inside tail)
    : runLength inside (cs ++ tail) = cs.length := by
  have none : tail.takeWhile inside = [] := by
    cases tail with
    | nil => rfl
    | cons c rest => simp [ends c rfl]
  rw [runLength, List.takeWhile_append_of_pos within, none, List.append_nil]

/-- Characters that open a name or belong to a number are those of ASCII. -/
theorem toNat_lt_of_isNameStart {c : Char} (opens : isNameStart c = true) : c.toNat < 128 := by
  simp only [isNameStart, Char.isAlpha, Char.isUpper, Char.isLower, Bool.or_eq_true,
    Bool.and_eq_true, decide_eq_true_eq] at opens
  rcases opens with (⟨-, upper⟩ | ⟨-, lower⟩) | rfl
  · exact Nat.lt_of_le_of_lt upper (by decide)
  · exact Nat.lt_of_le_of_lt lower (by decide)
  · decide

theorem toNat_lt_of_isNumberChar {c : Char} (within : isNumberChar c = true) : c.toNat < 128 := by
  simp only [isNumberChar, Char.isDigit, Bool.or_eq_true, Bool.and_eq_true,
    decide_eq_true_eq] at within
  rcases within with ⟨-, digit⟩ | rfl
  · exact Nat.lt_of_le_of_lt digit (by decide)
  · decide

/-- The classes of lexemes have no characters in common, by the table of ASCII. -/
theorem classes_disjoint {c : Char} (ascii : c.toNat < 128)
    : (isNameStart c = true → Text.isBlank c = false ∧ isNumberChar c = false)
      ∧ (isNumberChar c = true → Text.isBlank c = false) := by
  have table : ∀ n < 128,
      (isNameStart (Char.ofNat n) = true
        → Text.isBlank (Char.ofNat n) = false ∧ isNumberChar (Char.ofNat n) = false)
      ∧ (isNumberChar (Char.ofNat n) = true → Text.isBlank (Char.ofNat n) = false) := by
    decide +kernel
  simpa only [Char.ofNat_toNat] using table c.toNat ascii

theorem Scans.name {start : Nat} {cs tail : List Char} (named : IsName cs)
    (ends : Ends isNameChar tail)
    : Scans start cs tail [⟨.name, String.ofList cs, start, String.ofList cs⟩] := by
  obtain ⟨first, rest, rfl, opens, goesOn⟩ := named
  obtain ⟨notBlank, notNumber⟩ :=
    (classes_disjoint (toNat_lt_of_isNameStart opens)).1 opens
  have found : lexemeAt? first (rest ++ tail) = some ⟨.name, 1 + rest.length⟩ := by
    simp [lexemeAt?, notBlank, notNumber, opens, runLength_append goesOn ends]
  exact Scans.token .name first rest found rfl

/-- A number in positional notation is one lexeme, if its value is finite. -/
theorem Scans.number {start : Nat} {cs tail : List Char} {value : Float}
    (positional : Number.IsPositional cs) (valued : decimalValue cs = value)
    (finite : value.isFinite = true) (ends : Ends isNumberChar tail)
    : Scans start cs tail [⟨.number value, String.ofList cs, start, String.ofList cs⟩] := by
  have within : ∀ c ∈ cs, isNumberChar c = true := by
    intro c member
    rcases positional.mem member with digit | point
    · simp [isNumberChar, digit]
    · simp [isNumberChar, point]
  obtain ⟨first, rest, rfl, digit⟩ := positional.head
  have decimal : isDecimal (first :: rest) = true := by
    simp [isDecimal, digit, positional.count_point_le]
  have inside := within first List.mem_cons_self
  have goesOn : ∀ c ∈ rest, isNumberChar c = true := fun c member =>
    within c (List.mem_cons_of_mem first member)
  have notBlank := (classes_disjoint (toNat_lt_of_isNumberChar inside)).2 inside
  have found : lexemeAt? first (rest ++ tail) = some ⟨.number, 1 + rest.length⟩ := by
    simp [lexemeAt?, notBlank, inside, runLength_append goesOn ends]
  have tokenized : tokenOf .number start (first :: rest)
      = .ok (some ⟨.number value, String.ofList (first :: rest), start,
        String.ofList (first :: rest)⟩) := by
    simp [tokenOf, numberToken, decimal, valued, finite, Except.map]
  exact Scans.token .number first rest found tokenized

/-- A blank before something else is no token. -/
theorem Scans.blank {start : Nat} {tail : List Char} (ends : Ends Text.isBlank tail)
    : Scans start [' '] tail [] := by
  have none : ∀ c ∈ ([] : List Char), Text.isBlank c = true := by simp
  have single : runLength Text.isBlank tail = 0 := runLength_append none ends
  have found : lexemeAt? ' ' ([] ++ tail) = some ⟨.blank, 1 + 0⟩ := by
    rw [← single]
    rfl
  exact Scans.lexeme .blank ' ' [] found rfl

theorem Scans.opening (start : Nat) (tail : List Char)
    : Scans start ['('] tail [⟨.opening, "(", start, "("⟩] :=
  Scans.token .opening '(' [] rfl rfl

theorem Scans.closing (start : Nat) (tail : List Char)
    : Scans start [')'] tail [⟨.closing, ")", start, ")"⟩] :=
  Scans.token .closing ')' [] rfl rfl

theorem Scans.comma (start : Nat) (tail : List Char)
    : Scans start [','] tail [⟨.comma, ",", start, ","⟩] :=
  Scans.token .comma ',' [] rfl rfl

/-- A symbol that is one lexeme is scanned to its token. -/
theorem Scans.symbol {start first rest tail} {symbol : String}
    (spelled : symbol.toList = first :: rest)
    (found : lexemeAt? first (rest ++ tail) = some ⟨.operator, 1 + rest.length⟩)
    : Scans start symbol.toList tail [⟨.operator, symbol, start, symbol⟩] := by
  have text : String.ofList (first :: rest) = symbol := by rw [← spelled, String.ofList_toList]
  have tokenized : tokenOf .operator start (first :: rest)
      = .ok (some ⟨.operator, symbol, start, symbol⟩) := by
    rw [tokenOf, text]
  rw [spelled]
  exact Scans.token .operator first rest found tokenized

/-- An operator before a parenthesis is not cut and takes nothing from it. -/
theorem Scans.sign (op : UnaryOp) (start : Nat) (tail : List Char)
    : Scans start op.symbol.toList ('(' :: tail) [⟨.operator, op.symbol, start, op.symbol⟩] := by
  cases op <;> exact Scans.symbol rfl rfl

/-- An operator before a blank is not cut. -/
theorem Scans.operator (op : BinaryOp) (start : Nat) (tail : List Char)
    : Scans start op.symbol.toList (' ' :: tail) [⟨.operator, op.symbol, start, op.symbol⟩] := by
  cases op <;> exact Scans.symbol rfl rfl

/-- What may stand behind an expression in the text of another one. -/
def Separated (tail : List Char) : Prop :=
  ∀ c ∈ tail.head?, c = ')' ∨ c = ',' ∨ c = ' '

theorem separated_cons {c : Char} (separates : c = ')' ∨ c = ',' ∨ c = ' ') (tail : List Char)
    : Separated (c :: tail) := by
  intro c' head
  obtain rfl := Option.some.inj head
  exact separates

/-- No name and no number goes on behind an expression. -/
theorem Separated.ends {tail : List Char} (separated : Separated tail)
    : Ends isNameChar tail ∧ Ends isNumberChar tail := by
  constructor
  all_goals
    intro c head
    rcases separated c head with rfl | rfl | rfl <;> decide

theorem IsAmount.isUnsigned {x : Float} (amount : IsAmount x)
    : Number.IsUnsigned x.toModel.unpack :=
  (Number.isUnsigned_iff amount.1).mpr amount.2

/-- An amount is zero, or a positive double. -/
theorem IsAmount.cases {x : Float} (amount : IsAmount x)
    : x = 0.0
      ∨ ∃ mantissa exponent positive,
          x.toModel.unpack = .finite .positive mantissa exponent positive := by
  have finite : x.toModel.unpack.isFinite = true := amount.1
  have unsigned := amount.isUnsigned
  cases unpacked : x.toModel.unpack with
  | infinity sign => simp [unpacked, UnpackedFloat.isFinite] at finite
  | notANumber => simp [unpacked, UnpackedFloat.isFinite] at finite
  | zero sign =>
      rw [unpacked] at unsigned
      obtain rfl := unsigned
      rw [← Number.unpack_zero] at unpacked
      exact .inl (Number.eq_of_unpack unpacked)
  | finite sign mantissa exponent positive =>
      rw [unpacked] at unsigned
      obtain rfl := unsigned
      exact .inr ⟨_, _, positive, rfl⟩

/-- An amount is written in positional notation, and reads back as itself. -/
theorem IsAmount.readsBack {x : Float} (amount : IsAmount x)
    : Number.IsPositional (Number.positional x).toList
      ∧ decimalValue (Number.positional x).toList = x := by
  rcases amount.cases with rfl | ⟨mantissa, exponent, positive, unpacked⟩
  · have text : (Number.positional 0.0).toList = Number.positionalChars 0 0 := by decide +kernel
    rw [text]
    exact ⟨Number.isPositional_positionalChars 0 0, rfl⟩
  · have parts : Number.Double.ofFloat x = .finite false mantissa exponent := by
      rw [Number.Double.ofFloat, unpacked]
      rfl
    refine ⟨?_, Number.ofDecimal_positional unpacked⟩
    rw [Number.toList_positional parts]
    exact Number.isPositional_positionalChars _ _

namespace Expr

/-- The text of a well-formed expression begins with a character that is no blank. -/
theorem render_head {e : Expr} (formed : e.WellFormed)
    : ∃ first rest, e.render = first :: rest ∧ Text.isBlank first = false := by
  have ofName
      : ∀ {cs}, IsName cs → ∃ first rest, cs = first :: rest ∧ Text.isBlank first = false := by
    rintro _ ⟨first, rest, rfl, opens, -⟩
    exact ⟨first, rest, rfl, ((classes_disjoint (toNat_lt_of_isNameStart opens)).1 opens).1⟩
  cases e with
  | number value =>
      obtain ⟨first, rest, text, digit⟩ := (IsAmount.readsBack formed).1.head
      have within : isNumberChar first = true := by simp [isNumberChar, digit]
      exact ⟨first, rest, text, (classes_disjoint (toNat_lt_of_isNumberChar within)).2 within⟩
  | var name => exact ofName formed
  | unary op operand =>
      cases op <;> exact ⟨_, _, rfl, rfl⟩
  | binary op left right => exact ⟨_, _, rfl, rfl⟩
  | call name args =>
      obtain ⟨first, rest, text, notBlank⟩ := ofName formed.1
      refine ⟨first, rest ++ '(' :: (commaSeparated (renderAll args) ++ [')']), ?_, notBlank⟩
      rw [render, text, List.cons_append]
  | misplaced _ => exact formed.elim
  | foreign _ _ _ => exact formed.elim

/-- No blank comes before an expression. -/
theorem ends_blank_render {e : Expr} (formed : e.WellFormed) (tail : List Char)
    : Ends Text.isBlank (e.render ++ tail) := by
  obtain ⟨first, rest, text, notBlank⟩ := render_head formed
  intro c head
  rw [text] at head
  obtain rfl := Option.some.inj head
  exact notBlank

theorem ends_blank_renderAll {e : Expr} (formed : e.WellFormed) (rest : List Expr)
    (tail : List Char)
    : Ends Text.isBlank (commaSeparated (renderAll (e :: rest)) ++ tail) := by
  cases rest with
  | nil => exact ends_blank_render formed tail
  | cons next rest =>
      change Ends Text.isBlank
        (e.render ++ ',' :: ' ' :: commaSeparated (renderAll (next :: rest)) ++ tail)
      rw [List.append_assoc]
      exact ends_blank_render formed _

end Expr

/-- A text in parentheses is scanned to its tokens in parentheses. -/
theorem Scans.group {start : Nat} {cs tail : List Char} {tokens : List Token}
    (scans : Scans (start + 1) cs (')' :: tail) tokens)
    : Scans start ('(' :: (cs ++ [')'])) tail
        (⟨.opening, "(", start, "("⟩
          :: (tokens ++ [⟨.closing, ")", start + 1 + cs.length, ")"⟩])) :=
  (Scans.opening start (cs ++ [')'] ++ tail)).append (scans.append (Scans.closing _ tail))

/-- An operator between blanks joins the tokens of its operands. -/
theorem Scans.joined {start : Nat} {left right tail : List Char} {first second : List Token}
    (op : BinaryOp)
    (scans : Scans start left (' ' :: (op.symbol.toList ++ ' ' :: right) ++ tail) first)
    (scans' : Scans (start + left.length + 1 + op.symbol.toList.length + 1) right tail second)
    (notBlank : Ends Text.isBlank (right ++ tail))
    : Scans start (left ++ ' ' :: (op.symbol.toList ++ ' ' :: right)) tail
        (first ++ ⟨.operator, op.symbol, start + left.length + 1, op.symbol⟩ :: second) := by
  -- no operator begins with a blank
  have opened : Ends Text.isBlank (op.symbol.toList ++ ' ' :: right ++ tail) := by
    intro c head
    cases op <;>
      · obtain rfl := Option.some.inj head
        decide
  have behind := (Scans.operator op (start + left.length + 1) (right ++ tail)).append
    ((Scans.blank notBlank).append scans')
  exact scans.append ((Scans.blank opened).append behind)

/-- The text of an expression at an offset is scanned to tokens that derive the expression, the
first of which begins at the offset.
-/
structure Writes (start : Nat) (cs tail : List Char) (tokens : List Token) (e : Expr) : Prop where
  scans : Scans start cs tail tokens
  operand : Operand tokens e e.nesting
  placed : ∃ first rest, tokens = first :: rest ∧ first.start = start

/-- An operand in the place of a phrase of any tier. -/
theorem Operand.phrase {tier tokens e depth} (operand : Operand tokens e depth) (within : tier ≤ 7)
    : Phrase tier tokens e depth :=
  (Phrase.operand operand).loosen within

theorem BinaryOp.leftTier_le (op : BinaryOp) : op.leftTier ≤ 7 := by
  cases op <;> decide

theorem BinaryOp.rightTier_le (op : BinaryOp) : op.rightTier ≤ 7 := by
  cases op <;> decide

mutual

/-- Every well-formed expression is written so, whatever stands behind it there, by induction on
the expression.
-/
theorem Expr.writes (e : Expr) (formed : e.WellFormed) (start : Nat) {tail : List Char}
    (separated : Separated tail)
    : ∃ tokens, Writes start e.render tail tokens e := by
  match e with
  | .number value =>
      have amount : IsAmount value := formed
      obtain ⟨positional, readsBack⟩ := amount.readsBack
      refine ⟨_, Scans.number positional readsBack amount.1 separated.ends.2, ?_, ?_⟩
      · exact .number rfl
      · exact ⟨_, _, rfl, rfl⟩
  | .var name =>
      refine ⟨_, Scans.name formed separated.ends.1, ?_, ?_⟩
      · rw [Expr.render, String.ofList_toList]
        exact .name rfl
      · exact ⟨_, _, rfl, rfl⟩
  | .unary op operand =>
      obtain ⟨tokens, inner⟩ := operand.writes formed (start + op.symbol.toList.length + 1)
        (separated_cons (.inl rfl) tail)
      refine ⟨_, (Scans.sign op start _).append inner.scans.group, ?_, ?_⟩
      · refine .sign ⟨rfl, rfl⟩ ?_ (.group rfl rfl (inner.operand.phrase (Nat.zero_le 7)))
        -- the opening parenthesis begins where the sign ends
        intro keep
        exact ⟨_, _, rfl, by rw [Token.finish, String.length_toList]⟩
      · exact ⟨_, _, rfl, rfl⟩
  | .binary op left right =>
      obtain ⟨first, before⟩ := left.writes formed.1 (start + 1)
        (separated_cons (.inr (.inr rfl)) _)
      obtain ⟨second, behind⟩ := right.writes formed.2
        (start + 1 + left.render.length + 1 + op.symbol.toList.length + 1)
        (separated_cons (.inl rfl) tail)
      have joined := before.scans.joined op behind.scans (ends_blank_render formed.2 _)
      have named : Token.Writes
          ⟨.operator, op.symbol, start + 1 + left.render.length + 1, op.symbol⟩ op.symbol :=
        ⟨rfl, rfl⟩
      -- both operands are written as operands, which are phrases of every tier
      have phrase := Phrase.binary named (before.operand.phrase op.leftTier_le)
        (behind.operand.phrase op.rightTier_le)
      have text : enclosed op.symbol left.render right.render
          = '(' :: ((left.render ++ ' ' :: (op.symbol.toList ++ ' ' :: right.render))
            ++ [')']) := by
        simp [enclosed]
      rw [Expr.render, text]
      refine ⟨_, joined.group, .group rfl rfl (phrase.loosen (Nat.zero_le _)), _, _, rfl, rfl⟩
  | .call name args =>
      -- the parenthesis of a call ends its name
      have called : ∀ tail, Ends isNameChar ('(' :: tail) := by
        intro tail c head
        obtain rfl := Option.some.inj head
        decide
      match args with
      | [] =>
          refine ⟨_, (Scans.name formed.1 (called _)).append (Scans.nil _ _).group, ?_, ?_⟩
          · rw [String.ofList_toList]
            exact .emptyCall rfl rfl rfl
          · exact ⟨_, _, rfl, rfl⟩
      | e :: rest =>
          obtain ⟨tokens, scans, listed⟩ := Expr.writesAll (e :: rest) formed.2 (by simp)
            (start + name.toList.length + 1) tail
          refine ⟨_, (Scans.name formed.1 (called _)).append scans.group, ?_, ?_⟩
          · rw [String.ofList_toList]
            exact .call rfl rfl rfl listed
          · exact ⟨_, _, rfl, rfl⟩

theorem Expr.writesAll (args : List Expr) (formed : Expr.AllWellFormed args) (someArgs : args ≠ [])
    (start : Nat) (tail : List Char)
    : ∃ tokens,
        Scans start (Expr.commaSeparated (Expr.renderAll args)) (')' :: tail) tokens
        ∧ Arguments tokens args (Expr.nestingAll args) := by
  match args with
  | [e] =>
      obtain ⟨tokens, written⟩ := e.writes formed.1 start (separated_cons (.inl rfl) tail)
      refine ⟨tokens, written.scans, ?_⟩
      rw [Expr.nestingAll, Expr.nestingAll, Nat.max_zero]
      exact .last (written.operand.phrase (Nat.zero_le 7))
  | e :: next :: rest =>
      obtain ⟨others, scans, listed⟩ := Expr.writesAll (next :: rest) formed.2 (by simp)
        (start + e.render.length + 1 + 1) tail
      have notBlank := Expr.ends_blank_renderAll formed.2.1 rest (')' :: tail)
      have behind := (Scans.comma (start + e.render.length) _).append
        ((Scans.blank notBlank).append scans)
      obtain ⟨tokens, first⟩ := e.writes formed.1 start (separated_cons (.inr (.inl rfl))
        (' ' :: Expr.commaSeparated (Expr.renderAll (next :: rest)) ++ ')' :: tail))
      exact ⟨_, first.scans.append behind,
        .more (first.operand.phrase (Nat.zero_le 7)) rfl listed⟩

end

end Wavetable.Formula
