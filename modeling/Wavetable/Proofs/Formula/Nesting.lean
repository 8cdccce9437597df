import Wavetable.Proofs.Formula.Extents
import Wavetable.Proofs.Formula.Rendering

/-!
Nesting and open levels. Parentheses, arguments, operators before operands and the right operands of
powers nest; a chain of operators that group to the left does not. The parser opens a level for each
of the former, and one more for every right operand in a chain.
-/

namespace Wavetable.Formula

/-- What nests at the right operand of an operator, given what nests in it. -/
def BinaryOp.rightNesting (op : BinaryOp) (nesting : Nat) : Nat :=
  if op = .power then nesting + 1 else nesting

mutual

/-- A phrase of a tier in which so many constructs nest. Only a power nests its right operand. -/
inductive PhraseNests : Nat → List Token → Expr → Nat → Prop
  | operand {tokens e nesting} (single : OperandNests tokens e nesting)
    : PhraseNests tiers.length tokens e nesting
  | tighter {tier tokens e nesting} (inner : PhraseNests (tier + 1) tokens e nesting)
    : PhraseNests tier tokens e nesting
  | operation {op token first second left right nesting nesting'}
    (written : token.Writes (BinaryOp.symbol op))
    (before : PhraseNests op.leftTier first left nesting)
    (behind : PhraseNests op.rightTier second right nesting')
    : PhraseNests op.tier (first ++ token :: second) (.binary op left right)
        (max nesting (op.rightNesting nesting'))

/-- An operand in which so many constructs nest, its own parentheses or sign among them. -/
inductive OperandNests : List Token → Expr → Nat → Prop
  | number {token value} (kind : token.kind = .number value)
    : OperandNests [token] (.number value) 0
  | name {token} (kind : token.kind = .name) : OperandNests [token] (.var token.word) 0
  | emptyCall {name opening closing} (named : name.kind = .name)
    (opens : opening.kind = .opening) (closes : closing.kind = .closing)
    : OperandNests [name, opening, closing] (.call name.word []) 0
  | call {name opening closing tokens args nesting} (named : name.kind = .name)
    (opens : opening.kind = .opening) (closes : closing.kind = .closing)
    (inner : ArgumentsNest tokens args nesting)
    : OperandNests (name :: opening :: (tokens ++ [closing])) (.call name.word args) nesting
  | group {opening closing tokens e nesting} (opens : opening.kind = .opening)
    (closes : closing.kind = .closing) (inner : PhraseNests 0 tokens e nesting)
    : OperandNests (opening :: (tokens ++ [closing])) e (nesting + 1)
  | sign {op token tokens e nesting} (written : token.Writes (UnaryOp.symbol op))
    (touching : op = .keep → token.Touches tokens) (inner : OperandNests tokens e nesting)
    : OperandNests (token :: tokens) (.unary op e) (nesting + 1)

/-- One or more arguments, each of which nests. -/
inductive ArgumentsNest : List Token → List Expr → Nat → Prop
  | last {tokens e nesting} (inner : PhraseNests 0 tokens e nesting)
    : ArgumentsNest tokens [e] (nesting + 1)
  | more {comma tokens others e args nesting nesting'} (inner : PhraseNests 0 tokens e nesting)
    (separates : comma.kind = .comma) (rest : ArgumentsNest others args nesting')
    : ArgumentsNest (tokens ++ comma :: others) (e :: args) (max (nesting + 1) nesting')

end

/-- The tokens derive a formula with so much nesting, the whole formula included. -/
def Nests (tokens : List Token) (e : Expr) (nesting : Nat) : Prop :=
  ∃ inner, PhraseNests 0 tokens e inner ∧ nesting = inner + 1

namespace Expr

mutual

/-- The greatest number of right operands around one place, those of powers left out. -/
def chainSteps : Expr → Nat
  | .number _ => 0
  | .var _ => 0
  | .unary _ operand => operand.chainSteps
  | .binary op left right =>
      max left.chainSteps (if op = .power then right.chainSteps else right.chainSteps + 1)
  | .call _ args => chainStepsAll args
  | .misplaced _ left right => max left.chainSteps right.chainSteps
  | .foreign _ _ children => chainStepsAll children

def chainStepsAll : List Expr → Nat
  | [] => 0
  | e :: rest => max e.chainSteps (chainStepsAll rest)

end

end Expr

/-- A phrase of a tier opens a level wherever it nests, and more only for steps of chains. Between
two levels that nest, every looser tier gives one such step at most.
-/
structure OpensBeyond (tier nesting steps depth : Nat) : Prop where
  nests : nesting ≤ depth
  steps : depth ≤ nesting + steps
  tiers : depth ≤ 7 * nesting + (6 - tier)

section
variable {tier nesting nesting' steps steps' depth depth' : Nat}

theorem OpensBeyond.leaf (tier : Nat) : OpensBeyond tier 0 0 0 :=
  ⟨le_rfl, le_rfl, Nat.zero_le _⟩

theorem OpensBeyond.tighter (opens : OpensBeyond (tier + 1) nesting steps depth)
    : OpensBeyond tier nesting steps depth := by
  obtain ⟨nests, more, tiers⟩ := opens
  constructor <;> omega

/-- What opens a level and nests starts again with all tiers. -/
theorem OpensBeyond.enclosed (opens : OpensBeyond tier nesting steps depth) (outer : Nat)
    : OpensBeyond outer (nesting + 1) steps (depth + 1) := by
  obtain ⟨nests, more, tiers⟩ := opens
  constructor <;> omega

theorem OpensBeyond.beside (opens : OpensBeyond tier nesting steps depth)
    (opens' : OpensBeyond tier nesting' steps' depth')
    : OpensBeyond tier (max nesting nesting') (max steps steps') (max depth depth') := by
  obtain ⟨nests, more, tiers⟩ := opens
  obtain ⟨nests', more', tiers'⟩ := opens'
  constructor <;> omega

/-- A step of a chain opens a level without nesting, and leaves a tier less for its operand. -/
theorem OpensBeyond.step (opens : OpensBeyond (tier + 1) nesting steps depth) (loose : tier < 6)
    : OpensBeyond tier nesting (steps + 1) (depth + 1) := by
  obtain ⟨nests, more, tiers⟩ := opens
  constructor <;> omega

/-- An operation opens a level at its right operand, which nests in a power and is a step of a chain
otherwise.
-/
theorem OpensBeyond.operation {op : BinaryOp}
    (opens : OpensBeyond op.leftTier nesting steps depth)
    (opens' : OpensBeyond op.rightTier nesting' steps' depth')
    : OpensBeyond op.tier (max nesting (op.rightNesting nesting'))
        (max steps (if op = .power then steps' else steps' + 1)) (max depth (depth' + 1)) := by
  unfold BinaryOp.rightNesting
  by_cases power : op = .power
  · subst power
    exact opens.tighter.beside (opens'.enclosed _)
  · rw [if_neg power, if_neg power]
    obtain ⟨-, leftTier, -, rightStrength⟩ := leftward_tiers (mem_tiers_iff.mpr rfl) power
    have loose : op.tier < 6 := by cases op <;> first | decide | contradiction
    have rightTier : op.rightTier = op.tier + 1 := by
      rw [BinaryOp.rightTier, rightStrength]
      rfl
    rw [leftTier] at opens
    rw [rightTier] at opens'
    exact opens.beside (opens'.step loose)

end

/-- An operand in the place of a phrase of any tier, by induction on the distance from the last. -/
theorem OperandNests.phrase {tier tokens e nesting} (nests : OperandNests tokens e nesting)
    (within : tier ≤ tiers.length)
    : PhraseNests tier tokens e nesting := by
  induction within using Nat.decreasingInduction with
  | self => exact .operand nests
  | of_succ _ _ ih => exact .tighter ih

mutual

/-- A phrase that nests is one of the grammar, by induction on the derivation. -/
theorem PhraseNests.phrase {tier tokens e nesting} (nests : PhraseNests tier tokens e nesting)
    : ∃ depth, Phrase tier tokens e depth ∧ OpensBeyond tier nesting e.chainSteps depth := by
  match nests with
  | .operand single =>
      obtain ⟨depth, operand, opens⟩ := single.operand
      exact ⟨depth, .operand operand, opens⟩
  | .tighter inner =>
      obtain ⟨depth, phrase, opens⟩ := inner.phrase
      exact ⟨depth, .tighter phrase, opens.tighter⟩
  | .operation written before behind =>
      obtain ⟨depth, first, opens⟩ := before.phrase
      obtain ⟨depth', second, opens'⟩ := behind.phrase
      exact ⟨_, .binary written first second, opens.operation opens'⟩

theorem OperandNests.operand {tokens e nesting} (nests : OperandNests tokens e nesting)
    : ∃ depth, Operand tokens e depth
        ∧ OpensBeyond tiers.length nesting e.chainSteps depth := by
  match nests with
  | .number kind => exact ⟨0, .number kind, .leaf _⟩
  | .name kind => exact ⟨0, .name kind, .leaf _⟩
  | .emptyCall named opens closes => exact ⟨0, .emptyCall named opens closes, .leaf _⟩
  | .call named opens closes inner =>
      obtain ⟨depth, listed, more⟩ := inner.arguments
      exact ⟨depth, .call named opens closes listed, more⟩
  | .group opens closes inner =>
      obtain ⟨depth, phrase, more⟩ := inner.phrase
      exact ⟨_, .group opens closes phrase, more.enclosed _⟩
  | .sign written touching inner =>
      obtain ⟨depth, operand, more⟩ := inner.operand
      exact ⟨_, .sign written touching operand, more.enclosed _⟩

theorem ArgumentsNest.arguments {tokens args nesting} (nests : ArgumentsNest tokens args nesting)
    : ∃ depth, Arguments tokens args depth
        ∧ OpensBeyond tiers.length nesting (Expr.chainStepsAll args) depth := by
  match nests with
  | .last inner =>
      obtain ⟨depth, phrase, opens⟩ := inner.phrase
      refine ⟨_, .last phrase, ?_⟩
      rw [Expr.chainStepsAll, Expr.chainStepsAll, Nat.max_zero]
      exact opens.enclosed _
  | .more inner separates rest =>
      obtain ⟨depth, phrase, opens⟩ := inner.phrase
      obtain ⟨depth', listed, opens'⟩ := rest.arguments
      exact ⟨_, .more phrase separates listed, (opens.enclosed _).beside opens'⟩

end

/-- An operation nests in the tiers that its strengths tell. -/
theorem PhraseNests.exists_operation {op token first second left right nesting nesting'}
    {tier leftTier rightTier : Nat} (own : op.tier = tier) (ownLeft : op.leftTier = leftTier)
    (strength : op.rightStrength = rightTier + 1) (written : token.Writes (BinaryOp.symbol op))
    (before : PhraseNests leftTier first left nesting)
    (behind : PhraseNests rightTier second right nesting')
    : ∃ nesting, PhraseNests tier (first ++ token :: second) (.binary op left right) nesting := by
  obtain rfl : op.rightTier = rightTier := by
    rw [BinaryOp.rightTier, strength, Nat.add_sub_cancel]
  subst own ownLeft
  exact ⟨_, .operation written before behind⟩

mutual

/-- Every phrase of the grammar nests in some way, by induction on the derivation. -/
theorem Phrase.exists_nests {tier tokens e depth} (phrase : Phrase tier tokens e depth)
    : ∃ nesting, PhraseNests tier tokens e nesting := by
  match phrase with
  | .operand single =>
      obtain ⟨nesting, nests⟩ := single.exists_nests
      exact ⟨nesting, .operand nests⟩
  | .tighter inner =>
      obtain ⟨nesting, nests⟩ := inner.exists_nests
      exact ⟨nesting, .tighter nests⟩
  | .leftward placed ordinary written before behind =>
      obtain ⟨own, leftTier, -, rightStrength⟩ := leftward_tiers placed ordinary
      obtain ⟨nesting, first⟩ := before.exists_nests
      obtain ⟨nesting', second⟩ := behind.exists_nests
      exact PhraseNests.exists_operation own leftTier rightStrength written first second
  | .rightward placed written before behind =>
      obtain ⟨own, leftTier, -, rightStrength⟩ := rightward_tiers placed
      obtain ⟨nesting, first⟩ := before.exists_nests
      obtain ⟨nesting', second⟩ := behind.exists_nests
      exact PhraseNests.exists_operation own leftTier rightStrength written first second

theorem Operand.exists_nests {tokens e depth} (operand : Operand tokens e depth)
    : ∃ nesting, OperandNests tokens e nesting := by
  match operand with
  | .number kind => exact ⟨0, .number kind⟩
  | .name kind => exact ⟨0, .name kind⟩
  | .emptyCall named opens closes => exact ⟨0, .emptyCall named opens closes⟩
  | .call named opens closes inner =>
      obtain ⟨nesting, nests⟩ := inner.exists_nests
      exact ⟨nesting, .call named opens closes nests⟩
  | .group opens closes inner =>
      obtain ⟨nesting, nests⟩ := inner.exists_nests
      exact ⟨_, .group opens closes nests⟩
  | .sign written touching inner =>
      obtain ⟨nesting, nests⟩ := inner.exists_nests
      exact ⟨_, .sign written touching nests⟩

theorem Arguments.exists_nests {tokens args depth} (listed : Arguments tokens args depth)
    : ∃ nesting, ArgumentsNest tokens args nesting := by
  match listed with
  | .last inner =>
      obtain ⟨nesting, nests⟩ := inner.exists_nests
      exact ⟨_, .last nests⟩
  | .more inner separates rest =>
      obtain ⟨nesting, nests⟩ := inner.exists_nests
      obtain ⟨nesting', others⟩ := rest.exists_nests
      exact ⟨_, .more nests separates others⟩

end

/-- A phrase is a single operand or an operation, by induction on the derivation. -/
theorem PhraseNests.operand_or_operation {tier tokens e nesting}
    (nests : PhraseNests tier tokens e nesting)
    : OperandNests tokens e nesting
      ∨ ∃ op token first second left right before behind,
          tokens = first ++ token :: second ∧ e = .binary op left right ∧ token.Writes op.symbol
          ∧ PhraseNests op.leftTier first left before
          ∧ PhraseNests op.rightTier second right behind
          ∧ nesting = max before (op.rightNesting behind) := by
  match nests with
  | .operand single => exact .inl single
  | .tighter inner => exact inner.operand_or_operation
  | .operation written before behind =>
      exact .inr ⟨_, _, _, _, _, _, _, _, rfl, rfl, written, before, behind, rfl⟩

theorem OperandNests.not_operation {tier op token first second left right nesting nesting'}
    (nests : OperandNests (first ++ token :: second) (.binary op left right) nesting)
    (before : PhraseNests tier first left nesting') (written : token.Writes (BinaryOp.symbol op))
    : False := by
  obtain ⟨_, operand, -⟩ := nests.operand
  obtain ⟨_, phrase, -⟩ := before.phrase
  exact operand.not_operation phrase written

/-- Phrases with the same tree at the same place end together, if what follows ends both. -/
theorem PhraseNests.extent_unique {low high tokens tokens' rest rest' e nesting nesting'}
    (nests : PhraseNests low tokens e nesting) (nests' : PhraseNests high tokens' e nesting')
    (closes : Closes low rest) (closes' : Closes high rest')
    (same : tokens ++ rest = tokens' ++ rest')
    : tokens = tokens' ∧ rest = rest' := by
  obtain ⟨_, phrase, -⟩ := nests.phrase
  obtain ⟨_, phrase', -⟩ := nests'.phrase
  exact phrase.extent_unique phrase' closes closes' same

mutual

/-- The same tokens nest in one way only, by induction on one of the derivations. -/
theorem PhraseNests.unique {tier tier' tokens tokens' e e' nesting nesting'}
    (nests : PhraseNests tier tokens e nesting) (nests' : PhraseNests tier' tokens' e' nesting')
    (same : tokens = tokens') (tree : e = e')
    : nesting = nesting' := by
  match nests with
  | .tighter inner => exact inner.unique nests' same tree
  | .operand single =>
      rcases nests'.operand_or_operation with
        single' | ⟨_, _, _, _, _, _, _, _, rfl, rfl, written, before, -⟩
      · exact single.unique single' same tree
      · subst same tree
        exact (single.not_operation before written).elim
  | .operation written before behind =>
      rcases nests'.operand_or_operation with
        single | ⟨_, _, _, _, _, _, _, _, rfl, rfl, written', before', behind', rfl⟩
      · subst same tree
        exact (single.not_operation before written).elim
      · cases tree
        obtain ⟨first, second⟩ := before.extent_unique before' (.of_writes written)
          (.of_writes written') same
        rw [before.unique before' first rfl, behind.unique behind' (List.cons.inj second).2 rfl]

theorem OperandNests.unique {tokens tokens' e e' nesting nesting'}
    (nests : OperandNests tokens e nesting) (nests' : OperandNests tokens' e' nesting')
    (same : tokens = tokens') (tree : e = e')
    : nesting = nesting' := by
  match nests with
  | .number kind =>
      cases nests' with
      | number => rfl
      | group => exact absurd (List.cons.inj same).2 (by simp)
      | name | emptyCall | call | sign => contradiction
  | .name kind =>
      cases nests' with
      | name => rfl
      | group => exact absurd (List.cons.inj same).2 (by simp)
      | number | emptyCall | call | sign => contradiction
  | .emptyCall named _ _ =>
      cases nests' with
      | emptyCall => rfl
      | call _ _ _ inner =>
          obtain ⟨-, rfl⟩ := Expr.call.inj tree
          contradiction
      | group opens =>
          obtain ⟨rfl, -⟩ := List.cons.inj same
          exact absurd (named.symm.trans opens) (by simp)
      | number | name | sign => contradiction
  | .call named _ _ inner =>
      cases nests' with
      | emptyCall =>
          obtain ⟨-, rfl⟩ := Expr.call.inj tree
          contradiction
      | call _ _ _ inner' =>
          obtain ⟨-, -, inside⟩ := (List.cons.inj same).imp_right List.cons.inj
          exact inner.unique inner' (List.append_inj' inside rfl).1 (Expr.call.inj tree).2
      | group opens =>
          obtain ⟨rfl, -⟩ := List.cons.inj same
          exact absurd (named.symm.trans opens) (by simp)
      | number | name | sign => contradiction
  | .group opens _ inner =>
      cases nests' with
      | group _ _ inner' =>
          have inside := (List.cons.inj same).2
          rw [inner.unique inner' (List.append_inj' inside rfl).1 tree]
      | number kind | name kind | emptyCall kind | call kind =>
          obtain ⟨rfl, -⟩ := List.cons.inj same
          exact absurd (kind.symm.trans opens) (by simp)
      | sign written =>
          obtain ⟨rfl, -⟩ := List.cons.inj same
          exact absurd (written.1.symm.trans opens) (by simp)
  | .sign written _ inner =>
      cases nests' with
      | sign _ _ inner' =>
          cases tree
          rw [inner.unique inner' (List.cons.inj same).2 rfl]
      | group opens =>
          obtain ⟨rfl, -⟩ := List.cons.inj same
          exact absurd (written.1.symm.trans opens) (by simp)
      | number | name | emptyCall | call => contradiction

theorem ArgumentsNest.unique {tokens tokens' args args' nesting nesting'}
    (nests : ArgumentsNest tokens args nesting) (nests' : ArgumentsNest tokens' args' nesting')
    (same : tokens = tokens') (list : args = args')
    : nesting = nesting' := by
  match nests with
  | .last inner =>
      cases nests' with
      | last inner' =>
          cases list
          rw [inner.unique inner' same rfl]
      | more _ _ rest =>
          cases list
          contradiction
  | .more inner separates rest =>
      cases nests' with
      | last =>
          cases list
          contradiction
      | more inner' separates' rest' =>
          cases list
          obtain ⟨first, behind⟩ := inner.extent_unique inner'
            (.of_kind (by simp [separates]) (by simp [separates]))
            (.of_kind (by simp [separates']) (by simp [separates'])) same
          rw [inner.unique inner' first rfl, rest.unique rest' (List.cons.inj behind).2 rfl]

end

/-- What nests is derived. The levels are at least as many as nest, and more by the steps of chains
at most.
-/
theorem Nests.derives {tokens : List Token} {e : Expr} {nesting : Nat}
    (nests : Nests tokens e nesting)
    : ∃ levels, Derives tokens e levels ∧ nesting ≤ levels ∧ levels ≤ nesting + e.chainSteps
        ∧ levels ≤ 7 * nesting := by
  obtain ⟨inner, phraseNests, rfl⟩ := nests
  obtain ⟨depth, phrase, opens⟩ := phraseNests.phrase
  have steps := opens.steps
  have tiers := opens.tiers
  exact ⟨depth + 1, ⟨depth, phrase, rfl⟩, Nat.succ_le_succ opens.nests, by omega, by omega⟩

/-- A token list nests in one way only, with one tree. -/
theorem Nests.unique {tokens : List Token} {e e' : Expr} {nesting nesting' : Nat}
    (nests : Nests tokens e nesting) (nests' : Nests tokens e' nesting')
    : e = e' ∧ nesting = nesting' := by
  obtain ⟨_, derived, -⟩ := nests.derives
  obtain ⟨_, derived', -⟩ := nests'.derives
  obtain ⟨rfl, -⟩ := derived.unique derived'
  obtain ⟨inner, phraseNests, rfl⟩ := nests
  obtain ⟨inner', phraseNests', rfl⟩ := nests'
  exact ⟨rfl, congrArg (· + 1) (phraseNests.unique phraseNests' rfl rfl)⟩

theorem Derives.exists_nests {tokens : List Token} {e : Expr} {levels : Nat}
    (derived : Derives tokens e levels)
    : ∃ nesting, Nests tokens e nesting := by
  obtain ⟨depth, phrase, -⟩ := derived
  obtain ⟨inner, nests⟩ := phrase.exists_nests
  exact ⟨inner + 1, inner, nests, rfl⟩

theorem tokenize_of_scans {cs : List Char} {tokens : List Token} (scans : Scans 0 cs [] tokens)
    : tokenize (String.ofList cs) = .ok tokens := by
  have nothing : scanAt (0 + cs.length) [] = .ok [] := rfl
  unfold Scans at scans
  rw [List.append_nil, nothing] at scans
  rw [tokenize, String.toList_ofList]
  exact scans.trans (congrArg Except.ok (List.append_nil tokens))

/-- No operator of two characters begins with a plus sign. -/
theorem Scans.plus (start : Nat) (tail : List Char)
    : Scans start ['+'] tail [⟨.operator, "+", start, "+"⟩] := by
  have single : ∀ cs, lexemeAt? '+' cs = some ⟨.operator, 1⟩ := by
    rintro (_ | _) <;> rfl
  exact Scans.token .operator '+' [] (single _) rfl

/-- A variable in so many parentheses. -/
def grouped (count : Nat) : List Char :=
  List.replicate count '(' ++ 'x' :: List.replicate count ')'

theorem grouped_succ (count : Nat) : grouped (count + 1) = '(' :: (grouped count ++ [')']) := by
  simp [grouped, List.replicate_succ, ← List.replicate_succ']

/-- Each pair of parentheses around a variable nests, and opens a level, by induction on their
number.
-/
theorem exists_grouped (count start : Nat) {tail : List Char} (separated : Separated tail)
    : ∃ tokens, Scans start (grouped count) tail tokens
        ∧ OperandNests tokens (.var "x") count ∧ Operand tokens (.var "x") count := by
  induction count generalizing start tail with
  | zero =>
      have named : IsName ['x'] := ⟨'x', [], rfl, rfl, List.forall_mem_nil _⟩
      exact ⟨_, Scans.name named separated.ends.1, .name rfl, .name rfl⟩
  | succ count ih =>
      obtain ⟨tokens, scans, nests, operand⟩ := ih (start + 1) (separated_cons (.inl rfl) tail)
      rw [grouped_succ]
      exact ⟨_, scans.group, .group rfl rfl (nests.phrase (Nat.zero_le 7)),
        .group rfl rfl (operand.phrase (Nat.zero_le 7))⟩

/-- The parentheses to the right of a plus sign nest, and the sum opens one level more. -/
theorem exists_sum_grouped (count : Nat)
    : ∃ tokens,
        tokenize (String.ofList ('1' :: '+' :: grouped count)) = .ok tokens
        ∧ Nests tokens (.binary .add (.number 1.0) (.var "x")) (count + 1)
        ∧ Derives tokens (.binary .add (.number 1.0) (.var "x")) (count + 2) := by
  have ended : Separated [] := by
    intro c head
    contradiction
  obtain ⟨tokens, scans, nests, operand⟩ := exists_grouped count 2 ended
  have one : Scans 0 ['1'] (['+'] ++ grouped count ++ []) [⟨.number 1.0, "1", 0, "1"⟩] :=
    Scans.token .number '1' [] rfl rfl
  have whole := one.append ((Scans.plus 1 _).append scans)
  have written : Token.Writes ⟨.operator, "+", 1, "+"⟩ (BinaryOp.symbol .add) := ⟨rfl, rfl⟩
  have oneNests : OperandNests [⟨.number 1.0, "1", 0, "1"⟩] (.number 1.0) 0 := .number rfl
  have oneOperand : Operand [⟨.number 1.0, "1", 0, "1"⟩] (.number 1.0) 0 := .number rfl
  have sumNests := PhraseNests.operation written (oneNests.phrase (by decide))
    (nests.phrase (by decide))
  have sum := Phrase.binary written (oneOperand.phrase (by decide)) (operand.phrase (by decide))
  rw [Nat.zero_max] at sumNests sum
  refine ⟨_, ?_, ⟨count, .tighter (.tighter (.tighter (.tighter sumNests))), rfl⟩,
    count + 1, sum.loosen (Nat.zero_le _), rfl⟩
  exact tokenize_of_scans whole

/-- A formula that the tokens of a source derive nests in exactly one way, and what nests is
derived. If more than two hundred levels nest, the source is refused as too deeply nested. Otherwise
the open levels decide: they are as many as nest and more by the right operands in chains at most,
of which the looser tiers give no more than six for each level that nests.
-/
theorem parseSource_nests {source : String} {tokens : List Token}
    (scanned : tokenize source = .ok tokens)
    : (∀ e, (∃ nesting, Nests tokens e nesting) ↔ ∃ levels, Derives tokens e levels)
      ∧ (∀ e e' nesting nesting',
          Nests tokens e nesting
          → Nests tokens e' nesting'
          → e = e' ∧ nesting = nesting')
      ∧ ∀ e nesting, Nests tokens e nesting
        → (200 < nesting
            → ∃ error, parseSource source = .error error
              ∧ error.message = "Expression too deeply nested")
          ∧ ∃ levels, Derives tokens e levels
            ∧ nesting ≤ levels ∧ levels ≤ nesting + e.chainSteps ∧ levels ≤ 7 * nesting
            ∧ (levels ≤ 200 → parseSource source = .ok e)
            ∧ (200 < levels
                → ∃ error, parseSource source = .error error
                  ∧ error.message = "Expression too deeply nested") := by
  have parsed : parseSource source = parse tokens := by rw [parseSource, scanned]
  refine ⟨fun e => ⟨?_, ?_⟩, fun _ _ _ _ nests nests' => nests.unique nests', ?_⟩
  · rintro ⟨nesting, nests⟩
    obtain ⟨levels, derived, -⟩ := nests.derives
    exact ⟨levels, derived⟩
  · rintro ⟨levels, derived⟩
    exact derived.exists_nests
  · intro e nesting nests
    obtain ⟨levels, derived, more, steps, tiers⟩ := nests.derives
    have refused (beyond : 200 < levels)
        : ∃ error, parseSource source = .error error
          ∧ error.message = "Expression too deeply nested" := by
      obtain ⟨position, tooDeep⟩ := derived.parse_tooDeep beyond
      exact ⟨_, parsed.trans tooDeep, rfl⟩
    refine ⟨fun beyond => refused (Nat.lt_of_lt_of_le beyond more), levels, derived, more, steps,
      tiers, ?_, refused⟩
    intro fits
    exact parsed.trans (derived.parse_ok fits)

/-- Two levels nest in a sum with a parenthesis, so that it cannot reach the limit. -/
theorem parseSource_nests_sum
    : ∃ tokens,
        tokenize (String.ofList ('1' :: '+' :: grouped 1)) = .ok tokens
        ∧ Nests tokens (.binary .add (.number 1.0) (.var "x")) 2
        ∧ parseSource (String.ofList ('1' :: '+' :: grouped 1))
          = .ok (.binary .add (.number 1.0) (.var "x")) := by
  obtain ⟨tokens, scanned, nests, -⟩ := exists_sum_grouped 1
  obtain ⟨-, levels, -, -, -, few, accepted, -⟩ := (parseSource_nests scanned).2.2 _ _ nests
  exact ⟨tokens, scanned, nests, accepted (by omega)⟩

/-- A source in which two hundred levels nest is refused if an operand of a sum is the deepest. -/
theorem parseSource_right_operand_tooDeep
    : ∃ tokens e,
        tokenize (String.ofList ('1' :: '+' :: grouped 199)) = .ok tokens
        ∧ Nests tokens e 200
        ∧ ∃ error, parseSource (String.ofList ('1' :: '+' :: grouped 199)) = .error error
          ∧ error.message = "Expression too deeply nested" := by
  obtain ⟨tokens, scanned, nests, derived⟩ := exists_sum_grouped 199
  obtain ⟨position, tooDeep⟩ := derived.parse_tooDeep (by decide)
  refine ⟨tokens, _, scanned, nests, ⟨.tooDeep, position⟩, ?_, rfl⟩
  rw [parseSource, scanned]
  exact tooDeep

end Wavetable.Formula
