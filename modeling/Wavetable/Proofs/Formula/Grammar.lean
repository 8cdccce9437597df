import Mathlib.Data.List.GetD
import Mathlib.Tactic.IntervalCases
import Wavetable.Formula.Parser

/-!
The grammar of formulas, stated without the parser. Operators between operands stand in tiers,
and all of them but the power group to the left. Every derivation counts the levels that are open
at once inside it: an argument, a parenthesis, a right operand and an operator before an operand
open one each.
-/

namespace Wavetable.Formula

/-- The operators between operands in their tiers, from those that bind least. -/
def tiers : List (List BinaryOp) :=
  [[.either],
   [.both],
   [.equal, .notEqual],
   [.less, .greater, .lessEqual, .greaterEqual],
   [.add, .subtract],
   [.multiply, .divide],
   [.power]]

/-- A token is the operator with the given symbol. -/
def Token.Writes (token : Token) (symbol : String) : Prop :=
  token.kind = .operator ∧ token.word = symbol

/-- The first of some tokens begins where a token ends. -/
def Token.Touches (token : Token) (tokens : List Token) : Prop :=
  ∃ next rest, tokens = next :: rest ∧ next.start = token.finish

mutual

/-- A phrase of a tier, with the tree it stands for and the greatest number of levels that are
open at once inside it. Above all tiers, a phrase is a single operand.
-/
inductive Phrase : Nat → List Token → Expr → Nat → Prop
  | operand {tokens e depth} (single : Operand tokens e depth)
    : Phrase tiers.length tokens e depth
  | tighter {tier tokens e depth} (inner : Phrase (tier + 1) tokens e depth)
    : Phrase tier tokens e depth
  | leftward {tier op token first second left right depth depth'}
    (placed : op ∈ tiers.getD tier []) (ordinary : op ≠ .power) (written : token.Writes op.symbol)
    (before : Phrase tier first left depth) (behind : Phrase (tier + 1) second right depth')
    : Phrase tier (first ++ token :: second) (.binary op left right) (max depth (depth' + 1))
  | rightward {tier token first second left right depth depth'}
    (placed : BinaryOp.power ∈ tiers.getD tier []) (written : token.Writes BinaryOp.power.symbol)
    (before : Phrase (tier + 1) first left depth) (behind : Phrase tier second right depth')
    : Phrase tier (first ++ token :: second) (.binary .power left right) (max depth (depth' + 1))

/-- A single operand: a number, a variable, a call, a phrase in parentheses, or an operator before
an operand. A plus sign is one only where it touches its operand.
-/
inductive Operand : List Token → Expr → Nat → Prop
  | number {token value} (kind : token.kind = .number value) : Operand [token] (.number value) 0
  | name {token} (kind : token.kind = .name) : Operand [token] (.var token.word) 0
  | emptyCall {name opening closing} (named : name.kind = .name)
    (opens : opening.kind = .opening) (closes : closing.kind = .closing)
    : Operand [name, opening, closing] (.call name.word []) 0
  | call {name opening closing tokens args depth} (named : name.kind = .name)
    (opens : opening.kind = .opening) (closes : closing.kind = .closing)
    (inner : Arguments tokens args depth)
    : Operand (name :: opening :: (tokens ++ [closing])) (.call name.word args) depth
  | group {opening closing tokens e depth} (opens : opening.kind = .opening)
    (closes : closing.kind = .closing) (inner : Phrase 0 tokens e depth)
    : Operand (opening :: (tokens ++ [closing])) e (depth + 1)
  | sign {op token tokens e depth} (written : token.Writes (UnaryOp.symbol op))
    (touching : op = .keep → token.Touches tokens) (inner : Operand tokens e depth)
    : Operand (token :: tokens) (.unary op e) (depth + 1)

/-- One or more arguments with commas between them. -/
inductive Arguments : List Token → List Expr → Nat → Prop
  | last {tokens e depth} (inner : Phrase 0 tokens e depth) : Arguments tokens [e] (depth + 1)
  | more {comma tokens others e args depth depth'} (inner : Phrase 0 tokens e depth)
    (separates : comma.kind = .comma) (rest : Arguments others args depth')
    : Arguments (tokens ++ comma :: others) (e :: args) (max (depth + 1) depth')

end

/-- The tokens derive a formula in which the given number of levels are open at once; the whole
formula is one of them.
-/
def Derives (tokens : List Token) (e : Expr) (levels : Nat) : Prop :=
  ∃ depth, Phrase 0 tokens e depth ∧ levels = depth + 1

def BinaryOp.tier (op : BinaryOp) : Nat :=
  op.strength - 1

/-- The least tier of a left operand: powers take a single operand. -/
def BinaryOp.leftTier : BinaryOp → Nat
  | .power => 7
  | op => op.tier

def BinaryOp.rightTier (op : BinaryOp) : Nat :=
  op.rightStrength - 1

/-- An operator stands in exactly one tier, that of its strength, by listing the tiers. -/
theorem mem_tiers_iff {tier : Nat} {op : BinaryOp} : op ∈ tiers.getD tier [] ↔ tier = op.tier := by
  rcases Nat.lt_or_ge tier 7 with small | large
  · interval_cases tier <;> cases op <;> decide
  · have none : tiers.getD tier [] = [] := List.getD_eq_default _ _ large
    have bound : op.tier < 7 := by cases op <;> decide
    rw [none]
    constructor
    · intro member
      simp at member
    · intro same
      omega

/-- A phrase of a tier is one of every tier that binds less, by induction on the distance. -/
theorem Phrase.loosen {low high tokens e depth} (phrase : Phrase high tokens e depth)
    (below : low ≤ high)
    : Phrase low tokens e depth := by
  obtain ⟨distance, rfl⟩ := Nat.exists_eq_add_of_le below
  induction distance with
  | zero => exact phrase
  | succ distance ih => exact ih (.tighter phrase) (Nat.le_add_right _ _)

/-- Any two phrases of the tiers that an operator asks for are joined by it. -/
theorem Phrase.binary {op token first second left right depth depth'}
    (written : token.Writes (BinaryOp.symbol op)) (before : Phrase op.leftTier first left depth)
    (behind : Phrase op.rightTier second right depth')
    : Phrase op.tier (first ++ token :: second) (.binary op left right)
        (max depth (depth' + 1)) := by
  have placed : op ∈ tiers.getD op.tier [] := mem_tiers_iff.mpr rfl
  by_cases power : op = .power
  · subst power
    exact .rightward placed written before behind
  · have leftTier : op.leftTier = op.tier := by cases op <;> simp_all [BinaryOp.leftTier]
    have rightTier : op.rightTier = op.tier + 1 := by cases op <;> first | rfl | contradiction
    exact .leftward placed power written (leftTier ▸ before) (rightTier ▸ behind)

mutual

/-- A phrase begins with a token that neither ends a formula nor closes a parenthesis, by induction
on the derivation down to its first operand.
-/
theorem Phrase.head {tier tokens e depth} (phrase : Phrase tier tokens e depth)
    : ∃ first rest, tokens = first :: rest ∧ first.kind ≠ .ending ∧ first.kind ≠ .closing := by
  match phrase with
  | .operand single => exact single.head
  | .tighter inner => exact inner.head
  | .leftward _ _ _ before _ | .rightward _ _ before _ =>
      obtain ⟨first, rest, rfl, kind⟩ := before.head
      exact ⟨first, _, rfl, kind⟩

theorem Operand.head {tokens e depth} (operand : Operand tokens e depth)
    : ∃ first rest, tokens = first :: rest ∧ first.kind ≠ .ending ∧ first.kind ≠ .closing := by
  match operand with
  | .number kind | .name kind => exact ⟨_, _, rfl, by simp [kind]⟩
  | .emptyCall kind _ _ | .call kind _ _ _ | .group kind _ _ => exact ⟨_, _, rfl, by simp [kind]⟩
  | .sign written _ _ => exact ⟨_, _, rfl, by simp [written.1]⟩

end

theorem Arguments.head {tokens args depth} (listed : Arguments tokens args depth)
    : ∃ first rest, tokens = first :: rest ∧ first.kind ≠ .ending ∧ first.kind ≠ .closing := by
  cases listed with
  | last inner => exact inner.head
  | more inner =>
      obtain ⟨first, rest, rfl, kind⟩ := inner.head
      exact ⟨first, _, rfl, kind⟩

end Wavetable.Formula
