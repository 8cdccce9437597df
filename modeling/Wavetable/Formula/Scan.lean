import Wavetable.Formula.SyntaxError
import Wavetable.Formula.Token
import Wavetable.Number.Decimal
import Wavetable.Text.Blank

/-!
Formulas split into tokens. At every place the longest lexeme of the class that its first
character opens is taken; blanks are dropped, and a character that opens no lexeme, a malformed
number and a number beyond the doubles end the scan.
-/

namespace Wavetable.Formula

/-- Digits and points run together to a number. -/
def isNumberChar (c : Char) : Bool :=
  c.isDigit || c = '.'

/-- Letters of ASCII and the underscore open a name. -/
def isNameStart (c : Char) : Bool :=
  c.isAlpha || c = '_'

/-- A name goes on with letters of ASCII, digits and underscores. -/
def isNameChar (c : Char) : Bool :=
  isNameStart c || c.isDigit

/-- The operators of one character. -/
def isOperatorChar (c : Char) : Bool :=
  ['-', '+', '*', '/', '^', '<', '>', '!'].contains c

/-- The operators of two characters. -/
def isOperatorPair (first second : Char) : Bool :=
  [('<', '='), ('>', '='), ('=', '='), ('!', '='), ('&', '&'), ('|', '|')].contains (first, second)

/-- The classes of lexemes. -/
inductive LexemeClass
  | blank
  | number
  | name
  | operator
  | opening
  | closing
  | comma
  deriving Repr, DecidableEq

/-- A lexeme at the start of a text: its class, and the length of its text. -/
structure Lexeme where
  kind : LexemeClass
  length : Nat
  deriving Repr, DecidableEq

/-- The length of the longest start of a text within a set of characters. -/
def runLength (inside : Char → Bool) (cs : List Char) : Nat :=
  (cs.takeWhile inside).length

/-- The operator that a character opens, of two characters if it can be. -/
def operatorLength (first : Char) (rest : List Char) : Option Nat :=
  match rest with
  | second :: _ =>
      if isOperatorPair first second then some 2
      else if isOperatorChar first then some 1
      else none
  | [] => if isOperatorChar first then some 1 else none

/-- The lexeme that a character opens. -/
def lexemeAt? (first : Char) (rest : List Char) : Option Lexeme :=
  if Text.isBlank first then some ⟨.blank, 1 + runLength Text.isBlank rest⟩
  else if isNumberChar first then some ⟨.number, 1 + runLength isNumberChar rest⟩
  else if isNameStart first then some ⟨.name, 1 + runLength isNameChar rest⟩
  else if first = '(' then some ⟨.opening, 1⟩
  else if first = ')' then some ⟨.closing, 1⟩
  else if first = ',' then some ⟨.comma, 1⟩
  else (operatorLength first rest).map fun length => ⟨.operator, length⟩

/-- A number has a digit and at most one point. -/
def isDecimal (cs : List Char) : Bool :=
  cs.any Char.isDigit && cs.count '.' ≤ 1

/-- The value of a number: its digits before and behind the point. -/
def decimalValue (cs : List Char) : Float :=
  Number.ofDecimal (cs.takeWhile (· ≠ '.')) ((cs.dropWhile (· ≠ '.')).drop 1) 0

/-- The token of a number with the given digits and points. -/
def numberToken (start : Nat) (cs : List Char) : Except SyntaxError Token :=
  let text := String.ofList cs
  if isDecimal cs then
    let value := decimalValue cs
    if value.isFinite then .ok ⟨.number value, text, start, text⟩
    else .error ⟨.numberTooLarge text, start⟩
  else .error ⟨.malformedNumber text, start⟩

/-- The token of a lexeme with the given text; blanks have none. -/
def tokenOf (kind : LexemeClass) (start : Nat) (cs : List Char)
    : Except SyntaxError (Option Token) :=
  let text := String.ofList cs
  match kind with
  | .blank => .ok none
  | .number => (numberToken start cs).map some
  | .name => .ok (some ⟨.name, text, start, text⟩)
  | .operator => .ok (some ⟨.operator, text, start, text⟩)
  | .opening => .ok (some ⟨.opening, text, start, text⟩)
  | .closing => .ok (some ⟨.closing, text, start, text⟩)
  | .comma => .ok (some ⟨.comma, text, start, text⟩)

/-- The tokens of the rest of a source from an offset on. Every lexeme takes a character, so the
length of the rest is fuel enough.
-/
def scanFrom (start : Nat) : Nat → List Char → Except SyntaxError (List Token)
  | _, [] => .ok []
  | 0, _ :: _ => .ok []
  | fuel + 1, first :: rest =>
      match lexemeAt? first rest with
      | none => .error ⟨.unknownCharacter first, start⟩
      | some lexeme => do
          let cs := first :: rest
          let token ← tokenOf lexeme.kind start (cs.take lexeme.length)
          let tokens ← scanFrom (start + lexeme.length) fuel (cs.drop lexeme.length)
          pure (token.toList ++ tokens)

/-- The tokens of a source given by its characters. -/
def scan (cs : List Char) : Except SyntaxError (List Token) :=
  scanFrom 0 cs.length cs

def tokenize (source : String) : Except SyntaxError (List Token) :=
  scan source.toList

end Wavetable.Formula
