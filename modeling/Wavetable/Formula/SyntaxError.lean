import Wavetable.Text.Quoted

/-!
What can be wrong with the text of a formula, where, and how it is said.
-/

namespace Wavetable.Formula

/-- The causes for which a text is no formula. -/
inductive SyntaxCause
  | unknownCharacter (c : Char)
  | malformedNumber (text : String)
  | numberTooLarge (text : String)
  | missingOperand
  | unexpectedToken (word : String)
  | unexpectedOperator (word : String)
  | missingClosing
  | unclosedCall (name : String)
  | badSeparator
  | trailingTokens
  | tooDeep
  deriving Repr, DecidableEq

/-- A cause with the offset at which it shows. -/
structure SyntaxError where
  cause : SyntaxCause
  position : Nat
  deriving Repr, DecidableEq

/-- Characters that are half of an operator are reported with the whole one. -/
def unknownCharacterMessage (c : Char) : String :=
  if c = '&' then "Invalid operator '&' (did you mean '&&'?)"
  else if c = '|' then "Invalid operator '|' (did you mean '||'?)"
  else if c = '=' then "Invalid operator '=' (did you mean '=='?)"
  else "Unexpected character: " ++ Text.quote (String.singleton c)

def SyntaxCause.message : SyntaxCause → String
  | .unknownCharacter c => unknownCharacterMessage c
  | .malformedNumber text => "Invalid number: " ++ text
  | .numberTooLarge text => "Number out of range: " ++ String.ofList (text.toList.take 24) ++ "..."
  | .missingOperand => "Unexpected end of expression"
  | .unexpectedToken word => "Unexpected token: " ++ word
  | .unexpectedOperator word => "Unexpected operator: " ++ word
  | .missingClosing => "Expected ')'"
  | .unclosedCall name => "Unclosed call to " ++ name ++ "()"
  | .badSeparator => "Expected ',' or ')' in function call"
  | .trailingTokens => "Unexpected tokens after expression"
  | .tooDeep => "Expression too deeply nested"

/-- The wording of an error, which leaves out the position. -/
def SyntaxError.message (error : SyntaxError) : String :=
  error.cause.message

end Wavetable.Formula
