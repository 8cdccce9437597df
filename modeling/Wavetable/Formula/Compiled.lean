import Wavetable.Formula.Parser

/-!
Compiled formulas: the tree of a source together with the frame variables that it mentions.
A formula that mentions one is applied to all frames of a wavetable, any other to one frame.
-/

namespace Wavetable.Formula

/-- How a formula is applied to a wavetable. -/
inductive Mode
  | singleFrame
  | multiFrame
  deriving Repr, DecidableEq

def Mode.label : Mode → String
  | .singleFrame => "single_frame"
  | .multiFrame => "multi_frame"

/-- The mode that is asked for by a flag. -/
def Mode.ofFlag (isMultiFrame : Bool) : Mode :=
  if isMultiFrame then .multiFrame else .singleFrame

structure Compiled where
  tree : Expr
  usesY : Bool
  usesZ : Bool
  source : String

/-- The formula mentions a frame variable. -/
def Compiled.usesFrame (formula : Compiled) : Bool :=
  formula.usesY || formula.usesZ

/-- The mode that the frame variables call for. -/
def Compiled.mode (formula : Compiled) : Mode :=
  .ofFlag formula.usesFrame

inductive ComparisonError
  | tooDeep
  deriving Repr, DecidableEq

def ComparisonError.message : ComparisonError → String
  | .tooDeep => "maximum recursion depth exceeded in comparison"

/-- The number of levels below the topmost node down to which trees are compared. -/
def comparedLevels : Nat := 247

/-- Equal formulas have the same tree and facts; their sources do not count. Trees that agree on
too many levels are not compared.
-/
def Compiled.same (left right : Compiled) : Except ComparisonError Bool :=
  match left.tree.sameWithin comparedLevels right.tree with
  | none => .error .tooDeep
  | some same => .ok (same && left.usesY == right.usesY && left.usesZ == right.usesZ)

def Compiled.ofTree (source : String) (tree : Expr) : Compiled :=
  ⟨tree, tree.mentions "y", tree.mentions "z", source⟩

/-- The formula that a source writes. -/
def compile (source : String) : Except SyntaxError Compiled :=
  match parseSource source with
  | .error error => .error error
  | .ok tree => .ok (.ofTree source tree)

theorem compile_eq_ok_iff {source : String} {formula : Compiled}
    : compile source = .ok formula
      ↔ ∃ tree, parseSource source = .ok tree ∧ Compiled.ofTree source tree = formula := by
  cases parsed : parseSource source <;> simp [compile, parsed]

end Wavetable.Formula
