import Wavetable.Formula.Expr
import Wavetable.Number.Layout

/-!
Expressions as text, with parentheses around every operation and its operands. Numbers are
written positionally by their shortest decimals. An expression is followed with a stack of nodes
and a stack of texts, so its depth does not matter.
-/

namespace Wavetable.Formula.Expr

/-- Why an expression has no text. -/
inductive PrintError
  | unsupportedKind (kind : String)
  deriving Repr, DecidableEq

def PrintError.message : PrintError → String
  | .unsupportedKind kind => "unsupported node kind: " ++ kind

/-- Texts with a comma and a blank between two. -/
def commaSeparated : List (List Char) → List Char
  | [] => []
  | [text] => text
  | text :: rest => text ++ ',' :: ' ' :: commaSeparated rest

/-- An operator before an operand in parentheses. -/
def prefixed (symbol : String) (operand : List Char) : List Char :=
  symbol.toList ++ '(' :: (operand ++ [')'])

/-- An operator between two operands, with parentheses around all of it. -/
def enclosed (symbol : String) (left right : List Char) : List Char :=
  '(' :: (left ++ ' ' :: (symbol.toList ++ ' ' :: (right ++ [')'])))

/-- The text of a node with parts, from the texts of these. -/
def assemble : Expr → List (List Char) → List Char
  | .unary op _, [operand] => prefixed op.symbol operand
  | .binary op _ _, [left, right] => enclosed op.symbol left right
  | .misplaced op _ _, [left, right] => enclosed op.symbol left right
  | .call name _, args => name.toList ++ '(' :: (commaSeparated args ++ [')'])
  | _, _ => []

/-- A node that is to be written, and whether the texts of its parts are ready. -/
structure Pending where
  node : Expr
  ready : Bool

/-- The nodes that are to be written, the next one first, and the texts, the last one first. -/
structure Printing where
  pending : List Pending
  texts : List (List Char)

/-- One step writes the next node, or puts its parts before it. A node of a foreign kind has no
text.
-/
def Printing.take (pending : List Pending) (texts : List (List Char))
    : Pending → Except PrintError Printing
  | ⟨.number value, _⟩ => .ok ⟨pending, (Number.positional value).toList :: texts⟩
  | ⟨.var name, _⟩ => .ok ⟨pending, name.toList :: texts⟩
  | ⟨.foreign kind _ _, _⟩ => .error (.unsupportedKind kind)
  | ⟨node, true⟩ =>
      let count := node.children.length
      .ok ⟨pending, node.assemble (texts.take count).reverse :: texts.drop count⟩
  | ⟨node, false⟩ => .ok ⟨node.children.map (⟨·, false⟩) ++ ⟨node, true⟩ :: pending, texts⟩

/-- The texts that are left when all nodes are written. -/
def Printing.run : Nat → Printing → Except PrintError (List (List Char))
  | _, ⟨[], texts⟩ => .ok texts
  | 0, ⟨_ :: _, texts⟩ => .ok texts
  | fuel + 1, ⟨next :: pending, texts⟩ =>
      match Printing.take pending texts next with
      | .error error => .error error
      | .ok printing => printing.run fuel

/-- The text of an expression without nodes of foreign kinds. A node takes at most two steps. -/
def source (e : Expr) : Except PrintError String :=
  match Printing.run (2 * e.size) ⟨[⟨e, false⟩], []⟩ with
  | .error error => .error error
  | .ok texts => .ok (String.ofList (texts.headD []))

end Wavetable.Formula.Expr
