import Wavetable.Proofs.Formula.Nesting
import Wavetable.Proofs.Formula.RoundTrip
import Wavetable.Proofs.Number.Sums

/-!
Formulas and their texts compared. Well-formed trees of one text are the same, however deep they
are: the text yields tokens that derive the tree, and tokens derive one tree. Comparing the trees
node by node comes to the same answer, unless both are too high for the levels it may go down.
-/

namespace Wavetable.Formula

-----------------------------------------------------------------------------------------
-- Numbers
-----------------------------------------------------------------------------------------

theorem IsAmount.hasSize {x : Float} (amount : IsAmount x)
    : Number.HasSize x.toModel.unpack .positive (Number.value x) := by
  obtain ⟨sign, size, sized⟩ := Number.exists_hasSize amount.1
  have unsigned := amount.isUnsigned
  obtain rfl : sign = .positive := by
    generalize x.toModel.unpack = f at sized unsigned
    cases sized with
    | zero => exact unsigned
    | finite => exact unsigned
  rw [sized.standsFor.same]
  exact sized

/-- Numbers of formulas are equal as numbers only if they are the same. -/
theorem IsAmount.beq_iff {x y : Float} (amount : IsAmount x) (amount' : IsAmount y)
    : (x == y) = true ↔ x = y := by
  rw [Number.beq_iff_value (Number.isNaN_of_isFinite amount.1)
    (Number.isNaN_of_isFinite amount'.1)]
  constructor
  · intro same
    exact Number.eq_of_hasSize amount.hasSize (same ▸ amount'.hasSize)
  · rintro rfl
    rfl

namespace Expr

-----------------------------------------------------------------------------------------
-- Texts
-----------------------------------------------------------------------------------------

/-- A well-formed tree is told by its text: the tokens of the text derive nothing else. -/
theorem eq_of_source_eq {e e' : Expr} (formed : e.WellFormed) (formed' : e'.WellFormed)
    (same : e.source = e'.source)
    : e = e' := by
  rw [e.source_eq formed, e'.source_eq formed'] at same
  obtain ⟨tokens, scanned, derived⟩ := derives_render formed
  obtain ⟨tokens', scanned', derived'⟩ := derives_render formed'
  rw [Except.ok.inj same, scanned'] at scanned
  obtain rfl := Except.ok.inj scanned
  exact (derived.unique derived').1

-----------------------------------------------------------------------------------------
-- Comparing without a limit
-----------------------------------------------------------------------------------------

mutual

/-- Well-formed trees are found to be the same only if they are, by induction on the first. -/
theorem same_iff (e e' : Expr) (formed : e.WellFormed) (formed' : e'.WellFormed)
    : same e e' = true ↔ e = e' := by
  match e with
  | .number value =>
      cases e' with
      | number value' => rw [same, IsAmount.beq_iff formed formed', number.injEq]
      | _ => simp [same]
  | .var name => cases e' <;> simp [same]
  | .unary op operand =>
      cases e' with
      | unary op' operand' => simp [same, same_iff operand operand' formed formed']
      | _ => simp [same]
  | .binary op left right =>
      cases e' with
      | binary op' left' right' =>
          have first := same_iff left left' formed.1 formed'.1
          have second := same_iff right right' formed.2 formed'.2
          simp [same, first, second, and_assoc]
      | _ => simp [same]
  | .call name args =>
      cases e' with
      | call name' args' => simp [same, sameAll_iff args args' formed.2 formed'.2]
      | _ => simp [same]
  | .misplaced _ _ _ => exact formed.elim
  | .foreign _ _ _ => exact formed.elim

theorem sameAll_iff (args args' : List Expr) (formed : AllWellFormed args)
    (formed' : AllWellFormed args')
    : sameAll args args' = true ↔ args = args' := by
  match args with
  | [] => cases args' <;> simp [sameAll]
  | e :: rest =>
      cases args' with
      | nil => simp [sameAll]
      | cons e' rest' =>
          have first := same_iff e e' formed.1 formed'.1
          have others := sameAll_iff rest rest' formed.2 formed'.2
          simp [sameAll, first, others]

end

-----------------------------------------------------------------------------------------
-- Comparing so many levels down
-----------------------------------------------------------------------------------------

/-- The answer within so many levels is the one without a limit, or both trees are so high that
there is none.
-/
def AnswersWithin (levels height height' : Nat) (answer : Option Bool) (unlimited : Bool) : Prop :=
  answer = some unlimited ∨ answer = none ∧ levels < height ∧ levels < height'

section
variable {levels height height' height₂ height₂' : Nat} {answer answer₂ : Option Bool}
  {unlimited unlimited₂ : Bool}

/-- Two parts are answered one after the other, unless one of them is too high. -/
theorem AnswersWithin.also (first : AnswersWithin levels height height' answer unlimited)
    (second : AnswersWithin levels height₂ height₂' answer₂ unlimited₂)
    : AnswersWithin levels (max height height₂) (max height' height₂') (alsoSame answer answer₂)
        (unlimited && unlimited₂) := by
  rcases first with rfl | ⟨rfl, high⟩
  · cases unlimited with
    | false => exact .inl rfl
    | true =>
        rcases second with rfl | ⟨rfl, high⟩
        · exact .inl rfl
        · exact .inr ⟨rfl, by omega⟩
  · exact .inr ⟨rfl, by omega⟩

theorem AnswersWithin.below {answer : Nat → Option Bool} (some : 0 < height) (some' : 0 < height')
    (inner : ∀ levels, AnswersWithin (levels + 1) height height' (answer levels) unlimited)
    : AnswersWithin levels height height' (oneBelow levels answer) unlimited := by
  cases levels with
  | zero => exact .inr ⟨rfl, some, some'⟩
  | succ levels => exact inner levels

theorem AnswersWithin.parts (inner : AnswersWithin levels height height' answer unlimited)
    : AnswersWithin (levels + 1) (height + 1) (height' + 1) answer unlimited :=
  inner.imp_right fun ⟨unanswered, high⟩ => ⟨unanswered, by omega⟩

/-- Nodes with different labels are not the same, and their parts are not compared. -/
theorem AnswersWithin.labelled (inner : AnswersWithin levels height height' answer unlimited)
    (labels : Bool)
    : AnswersWithin levels height height' (if labels then answer else some false)
        (labels && unlimited) := by
  cases labels with
  | false => exact .inl rfl
  | true => exact inner

end

theorem height_pos (e : Expr) : 0 < e.height := by
  cases e <;> simp [height]

mutual

/-- Comparing within so many levels, by induction on the first tree. -/
theorem sameWithin_answers (levels : Nat) (e e' : Expr)
    : AnswersWithin (levels + 1) e.height e'.height (sameWithin levels e e') (same e e') := by
  have pair (levels : Nat) (left right left' right' : Expr)
      (first : ∀ levels, AnswersWithin (levels + 1) left.height left'.height
        (sameWithin levels left left') (same left left'))
      (second : ∀ levels, AnswersWithin (levels + 1) right.height right'.height
        (sameWithin levels right right') (same right right'))
      : AnswersWithin levels (max left.height right.height) (max left'.height right'.height)
          (oneBelow levels fun levels =>
            alsoSame (sameWithin levels left left') (sameWithin levels right right'))
          (same left left' && same right right') :=
    .below (lt_max_of_lt_left left.height_pos) (lt_max_of_lt_left left'.height_pos)
      fun levels => (first levels).also (second levels)
  match e with
  | .number _ => cases e' <;> exact .inl rfl
  | .var _ => cases e' <;> exact .inl rfl
  | .unary op operand =>
      cases e' with
      | unary op' operand' =>
          have inner : AnswersWithin levels operand.height operand'.height _ _ :=
            .below operand.height_pos operand'.height_pos
              fun levels => sameWithin_answers levels operand operand'
          exact inner.parts.labelled _
      | _ => exact .inl rfl
  | .binary op left right =>
      cases e' with
      | binary op' left' right' =>
          have inner := pair levels left right left' right'
            (fun levels => sameWithin_answers levels left left')
            (fun levels => sameWithin_answers levels right right')
          rw [same, Bool.and_assoc]
          exact inner.parts.labelled _
      | _ => exact .inl rfl
  | .call name args =>
      cases e' with
      | call name' args' => exact (sameAllWithin_answers levels args args').parts.labelled _
      | _ => exact .inl rfl
  | .misplaced op left right =>
      cases e' with
      | misplaced op' left' right' =>
          have inner := pair levels left right left' right'
            (fun levels => sameWithin_answers levels left left')
            (fun levels => sameWithin_answers levels right right')
          rw [same, Bool.and_assoc]
          exact inner.parts.labelled _
      | _ => exact .inl rfl
  | .foreign kind label parts =>
      cases e' with
      | foreign kind' label' parts' =>
          exact (sameAllWithin_answers levels parts parts').parts.labelled _
      | _ => exact .inl rfl

theorem sameAllWithin_answers (levels : Nat) (args args' : List Expr)
    : AnswersWithin levels (heightAll args) (heightAll args') (sameAllWithin levels args args')
        (sameAll args args') := by
  match args with
  | [] => cases args' <;> exact .inl rfl
  | e :: rest =>
      cases args' with
      | nil => exact .inl rfl
      | cons e' rest' =>
          have first : AnswersWithin levels e.height e'.height _ _ :=
            .below e.height_pos e'.height_pos fun levels => sameWithin_answers levels e e'
          exact first.also (sameAllWithin_answers levels rest rest')

end

/-- The answer about a tree of some height and itself, within so many levels. -/
def answerOfHeight (levels height : Nat) : Option Bool :=
  if height ≤ levels then some true else none

theorem alsoSame_answerOfHeight (levels height height' : Nat)
    : alsoSame (answerOfHeight levels height) (answerOfHeight levels height')
      = answerOfHeight levels (max height height') := by
  unfold answerOfHeight
  by_cases fits : height ≤ levels <;> by_cases fits' : height' ≤ levels <;>
    simp [alsoSame, fits, fits']

theorem oneBelow_answerOfHeight {levels height : Nat} (some : 0 < height)
    : oneBelow levels (fun levels => answerOfHeight (levels + 1) height)
      = answerOfHeight levels height := by
  cases levels with
  | zero =>
      unfold answerOfHeight
      rw [if_neg (by omega)]
      rfl
  | succ levels => rfl

theorem answerOfHeight_succ (levels height : Nat)
    : answerOfHeight (levels + 1) (height + 1) = answerOfHeight levels height := by
  simp [answerOfHeight]

mutual

/-- A well-formed tree is found to be itself if it is not too high, by induction on the tree. -/
theorem sameWithin_self (levels : Nat) (e : Expr) (formed : e.WellFormed)
    : sameWithin levels e e = answerOfHeight (levels + 1) e.height := by
  match e with
  | .number value => simp [sameWithin, height, answerOfHeight, (IsAmount.beq_iff formed formed).mpr]
  | .var _ => simp [sameWithin, height, answerOfHeight]
  | .unary op operand =>
      have inner := fun levels => sameWithin_self levels operand formed
      simp only [sameWithin, beq_self_eq_true, if_true, inner, height,
        oneBelow_answerOfHeight operand.height_pos, answerOfHeight_succ]
  | .binary op left right =>
      have first := fun levels => sameWithin_self levels left formed.1
      have second := fun levels => sameWithin_self levels right formed.2
      have some : 0 < max left.height right.height := lt_max_of_lt_left left.height_pos
      simp only [sameWithin, beq_self_eq_true, if_true, first, second, height,
        alsoSame_answerOfHeight, oneBelow_answerOfHeight some, answerOfHeight_succ]
  | .call name args =>
      simp only [sameWithin, beq_self_eq_true, if_true, height, answerOfHeight_succ,
        sameAllWithin_self levels args formed.2]
  | .misplaced _ _ _ => exact formed.elim
  | .foreign _ _ _ => exact formed.elim

theorem sameAllWithin_self (levels : Nat) (args : List Expr) (formed : AllWellFormed args)
    : sameAllWithin levels args args = answerOfHeight levels (heightAll args) := by
  match args with
  | [] => simp [sameAllWithin, heightAll, answerOfHeight]
  | e :: rest =>
      have first := fun levels => sameWithin_self levels e formed.1
      simp only [sameAllWithin, first, oneBelow_answerOfHeight e.height_pos,
        sameAllWithin_self levels rest formed.2, alsoSame_answerOfHeight, heightAll]

end

end Expr

-----------------------------------------------------------------------------------------
-- Formulas
-----------------------------------------------------------------------------------------

/-- Formulas of different trees are found to be different, unless both trees are too high. -/
theorem Compiled.same_of_ne {formula other : Compiled} (formed : formula.tree.WellFormed)
    (formed' : other.tree.WellFormed) (different : formula.tree ≠ other.tree)
    : formula.same other = .ok false
      ∨ formula.same other = .error .tooDeep
        ∧ comparedLevels + 1 < formula.tree.height ∧ comparedLevels + 1 < other.tree.height := by
  have unlimited : formula.tree.same other.tree = false := by
    rw [← Bool.not_eq_true, Expr.same_iff _ _ formed formed']
    exact different
  unfold Compiled.same
  rcases Expr.sameWithin_answers comparedLevels formula.tree other.tree with answer | ⟨answer, high⟩
  · rw [answer, unlimited]
    exact .inl rfl
  · rw [answer]
    exact .inr ⟨rfl, high⟩

/-- A formula is found to be the same as one of the same tree and facts, unless the tree is too
high.
-/
theorem Compiled.same_of_eq {formula other : Compiled} (formed : formula.tree.WellFormed)
    (trees : formula.tree = other.tree) (usesY : formula.usesY = other.usesY)
    (usesZ : formula.usesZ = other.usesZ)
    : formula.same other
      = if formula.tree.height ≤ comparedLevels + 1 then .ok true else .error .tooDeep := by
  rw [Compiled.same, ← trees, ← usesY, ← usesZ, Expr.sameWithin_self _ _ formed,
    Expr.answerOfHeight]
  by_cases fits : formula.tree.height ≤ comparedLevels + 1 <;> simp [fits]

/-- The text of a sum without parentheses, with so many signs. -/
def summed : Nat → List Char
  | 0 => ['x']
  | more + 1 => summed more ++ ['+', 'x']

/-- The tree of a sum, in which every sign is one level further down. -/
def sumOf : Nat → Expr
  | 0 => .var "x"
  | more + 1 => .binary .add (sumOf more) (.var "x")

theorem height_sumOf (count : Nat) : (sumOf count).height = count + 1 := by
  induction count with
  | zero => rfl
  | succ more ih =>
      rw [sumOf, Expr.height, ih, Expr.height]
      omega

/-- However many signs a sum has, one level is open beside the outermost at most, by induction on
their number.
-/
theorem exists_summed (count : Nat) {tail : List Char} (ends : Ends isNameChar tail)
    : ∃ tokens depth,
        Scans 0 (summed count) tail tokens ∧ Phrase 4 tokens (sumOf count) depth ∧ depth ≤ 1 := by
  have named : IsName ['x'] := ⟨'x', [], rfl, rfl, List.forall_mem_nil _⟩
  induction count generalizing tail with
  | zero =>
      have single : Operand [⟨.name, "x", 0, "x"⟩] (.var "x") 0 := .name rfl
      exact ⟨_, 0, Scans.name named ends, single.phrase (by decide), Nat.zero_le 1⟩
  | succ more ih =>
      have sign : Ends isNameChar (['+', 'x'] ++ tail) := by
        rintro _ ⟨⟩
        decide
      obtain ⟨tokens, depth, scans, phrase, flat⟩ := ih sign
      have behind := (Scans.plus (0 + (summed more).length) (['x'] ++ tail)).append
        (Scans.name named ends)
      have last {start : Nat} : Operand [⟨.name, "x", start, "x"⟩] (.var "x") 0 := .name rfl
      exact ⟨_, _, scans.append behind,
        .leftward (by decide) (by decide) ⟨rfl, rfl⟩ phrase (last.phrase (by decide)), by omega⟩

theorem compile_summed (count : Nat)
    : compile (String.ofList (summed count))
      = .ok (.ofTree (String.ofList (summed count)) (sumOf count)) := by
  have nothing : Ends isNameChar [] := by
    intro c head
    contradiction
  obtain ⟨tokens, depth, scans, phrase, flat⟩ := exists_summed count nothing
  have derived : Derives tokens (sumOf count) (depth + 1) :=
    ⟨depth, phrase.loosen (Nat.zero_le 4), rfl⟩
  refine compile_eq_ok_iff.mpr ⟨sumOf count, ?_, rfl⟩
  rw [parseSource, tokenize_of_scans scans]
  exact derived.parse_ok (Nat.le_trans (Nat.succ_le_succ flat) (by decide))

end Wavetable.Formula
