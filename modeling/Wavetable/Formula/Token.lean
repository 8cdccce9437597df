/-!
Tokens of a formula: numbers, names, operators, parentheses and commas, each with its place in
the source.
-/

namespace Wavetable.Formula

/-- The classes of tokens. A scan yields the first six; a token list that is given directly may
also end early or hold classes that no formula has.
-/
inductive TokenKind
  | number (value : Float)
  | name
  | operator
  | opening
  | closing
  | comma
  | ending
  | other (label : String)
  deriving Repr, DecidableEq

/-- A token: its class, the word it is known by, where it starts and the text it covers. -/
structure Token where
  kind : TokenKind
  word : String
  start : Nat
  text : String
  deriving Repr, DecidableEq

/-- The offset behind the last character of a token. -/
def Token.finish (token : Token) : Nat :=
  token.start + token.text.length

/-- The end of a token list: the end of its last token. -/
def endOf (tokens : List Token) : Nat :=
  match tokens.getLast? with
  | some token => token.finish
  | none => 0

end Wavetable.Formula
