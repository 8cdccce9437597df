import Wavetable.Formula.Expr
import Wavetable.Formula.Scan

/-!
Expressions read from tokens. Operators bind by their strength and only powers group to the
right; an operator before an operand binds tighter than all of them. A formula, a parenthesis,
an argument, a right operand and an operator before an operand open one level each, and no more
than two hundred may be open at once.
-/

namespace Wavetable.Formula

/-- The number of levels that may be open at once. -/
def maxNesting : Nat := 200

/-- An expression at the start of a token list, and the tokens behind it. -/
abbrev Parsed := Except SyntaxError (Expr × List Token)

/-- The class of the next token. -/
def nextKind? (tokens : List Token) : Option TokenKind :=
  tokens.head?.map (·.kind)

/-- The token list has no more tokens, or an explicit end. -/
def atEnd (tokens : List Token) : Bool :=
  tokens.isEmpty || nextKind? tokens = some .ending

/-- The offset of the next token, and that of the end where there is none. -/
def nextStart (stop : Nat) : List Token → Nat
  | [] => stop
  | token :: _ => token.start

/-- The refusal of the next token. -/
def refuse (stop : Nat) (cause : SyntaxCause) (tokens : List Token) : Except SyntaxError α :=
  .error ⟨cause, nextStart stop tokens⟩

/-- The operator between operands that comes next, with the tokens behind it. -/
def nextBinary? : List Token → Option (BinaryOp × List Token)
  | token :: rest =>
      if token.kind == .operator then (BinaryOp.ofSymbol? token.word).map fun op => (op, rest)
      else none
  | [] => none

/-- An operand followed by all operators of at least the given strength and their right
operands. Every operator takes a token, so the length of the list is fuel enough.
-/
def climb (rightOperand : Nat → List Token → Parsed) (least : Nat)
    : Nat → Expr → List Token → Parsed
  | 0, left, tokens => .ok (left, tokens)
  | fuel + 1, left, tokens =>
      match nextBinary? tokens with
      | none => .ok (left, tokens)
      | some (op, rest) =>
          if op.strength < least then .ok (left, tokens)
          else
            match rightOperand op.rightStrength rest with
            | .error error => .error error
            | .ok (right, rest) =>
                climb rightOperand least fuel (.binary op left right) rest

/-- The arguments of a call up to its closing parenthesis, at least one. All but the first stand
behind a comma, so one more than the length of the list is fuel enough.
-/
def callArgs (argument : List Token → Parsed) (stop : Nat) (name : String)
    : Nat → List Token → Except SyntaxError (List Expr × List Token)
  | 0, tokens => refuse stop (.unclosedCall name) tokens
  | fuel + 1, tokens =>
      match argument tokens with
      | .error error => .error error
      | .ok (first, rest) =>
          match nextKind? rest with
          | some .comma =>
              match callArgs argument stop name fuel (rest.drop 1) with
              | .error error => .error error
              | .ok (others, rest) => .ok (first :: others, rest)
          | some .closing => .ok ([first], rest.drop 1)
          | _ =>
              if atEnd rest then refuse stop (.unclosedCall name) rest
              else refuse stop .badSeparator rest

/-- A call behind its opening parenthesis. -/
def callTail (argument : List Token → Parsed) (stop : Nat) (name : String)
    (tokens : List Token) : Parsed :=
  if nextKind? tokens = some .closing then .ok (.call name [], tokens.drop 1)
  else
    match callArgs argument stop name (tokens.length + 1) tokens with
    | .error error => .error error
    | .ok (args, rest) => .ok (.call name args, rest)

/-- A name: a variable, or a call where an opening parenthesis follows. -/
def nameTail (argument : List Token → Parsed) (stop : Nat) (name : String)
    (tokens : List Token) : Parsed :=
  if nextKind? tokens = some .opening then callTail argument stop name (tokens.drop 1)
  else .ok (.var name, tokens)

/-- A parenthesised expression behind its opening parenthesis. -/
def groupTail (inner : List Token → Parsed) (stop : Nat) (tokens : List Token) : Parsed :=
  match inner tokens with
  | .error error => .error error
  | .ok (e, rest) =>
      if nextKind? rest = some .closing then .ok (e, rest.drop 1)
      else refuse stop .missingClosing rest

/-- The plus sign of a number touches its operand, as in `+3`; with a blank behind it, it only
stands between operands.
-/
def touches (token : Token) (rest : List Token) : Bool :=
  match rest with
  | next :: _ => next.kind != .ending && next.start == token.finish
  | [] => false

/-- The operator before an operand that a token writes. -/
def signOf? (token : Token) (rest : List Token) : Option UnaryOp :=
  match UnaryOp.ofSymbol? token.word with
  | some .keep => if touches token rest then some .keep else none
  | other => other

/-- An operand behind the operator before it. -/
def signed (operand : List Token → Parsed) (token : Token) (rest : List Token) : Parsed :=
  match signOf? token rest with
  | none => .error ⟨.unexpectedOperator token.word, token.start⟩
  | some op =>
      match operand rest with
      | .error error => .error error
      | .ok (e, rest) => .ok (.unary op e, rest)

/-- A number, a name, a call, a parenthesised expression or an operator with its operand. The
inner parsers read what stands in parentheses, and what an operator comes before.
-/
def primary (inner : List Token → Parsed) (afterSign : Token → List Token → Parsed) (stop : Nat)
    (tokens : List Token) : Parsed :=
  match tokens with
  | [] => refuse stop .missingOperand tokens
  | token :: rest =>
      match token.kind with
      | .number value => .ok (.number value, rest)
      | .name => nameTail inner stop token.word rest
      | .opening => groupTail inner stop rest
      | .operator => afterSign token rest
      | .ending => refuse stop .missingOperand tokens
      | _ => .error ⟨.unexpectedToken token.word, token.start⟩

/-- The parsers of one level: of an expression with operators of at least some strength, and of
a primary expression.
-/
structure Level where
  expression : Nat → List Token → Parsed
  primary : List Token → Parsed

/-- The parsers where so many more levels may open. -/
def level (stop : Nat) : Nat → Level
  | 0 =>
      ⟨fun _ tokens => refuse stop .tooDeep tokens,
       primary (refuse stop .tooDeep) (fun token _ => .error ⟨.tooDeep, token.start⟩) stop⟩
  | room + 1 =>
      let inside := level stop room
      let expression := fun least tokens =>
        match inside.primary tokens with
        | .error error => .error error
        | .ok (left, rest) => climb inside.expression least rest.length left rest
      ⟨expression, primary (expression 0) (signed inside.primary) stop⟩

/-- The expression that a whole token list writes. -/
def parse (tokens : List Token) : Except SyntaxError Expr :=
  match (level (endOf tokens) maxNesting).expression 0 tokens with
  | .error error => .error error
  | .ok (e, rest) => if atEnd rest then .ok e else refuse (endOf tokens) .trailingTokens rest

/-- The expression that a source writes. -/
def parseSource (source : String) : Except SyntaxError Expr :=
  match tokenize source with
  | .error error => .error error
  | .ok tokens => parse tokens

theorem parseSource_eq_ok_iff {source : String} {e : Expr}
    : parseSource source = .ok e
      ↔ ∃ tokens, tokenize source = .ok tokens ∧ parse tokens = .ok e := by
  cases scanned : tokenize source <;> simp [parseSource, scanned]

end Wavetable.Formula
