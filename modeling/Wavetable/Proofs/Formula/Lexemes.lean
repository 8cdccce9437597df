import Wavetable.Proofs.Formula.Rendering

/-!
Lexemes, stated without the scanner. Each class has its texts, and no two classes have texts that
begin with the same character; the scanner finds the longest lexeme at the start of a text wherever
there is one.
-/

namespace Wavetable.Formula

/-- The operators of formulas as they are written. -/
def operatorTexts : List (List Char) :=
  [['<', '='], ['>', '='], ['=', '='], ['!', '='], ['&', '&'], ['|', '|'],
   ['-'], ['+'], ['*'], ['/'], ['^'], ['<'], ['>'], ['!']]

/-- The texts of a class of lexemes. -/
def LexemeClass.Has : LexemeClass → List Char → Prop
  | .blank, cs => cs ≠ [] ∧ ∀ c ∈ cs, Text.isBlank c = true
  | .number, cs => cs ≠ [] ∧ ∀ c ∈ cs, isNumberChar c = true
  | .name, cs => IsName cs
  | .operator, cs => cs ∈ operatorTexts
  | .opening, cs => cs = ['(']
  | .closing, cs => cs = [')']
  | .comma, cs => cs = [',']

/-- A lexeme of a class stands at the start of a text, and none of any class there is longer. -/
structure LongestLexeme (kind : LexemeClass) (text cs : List Char) : Prop where
  has : kind.Has cs
  starts : cs <+: text
  longest : ∀ other cs', LexemeClass.Has other cs' → cs' <+: text → cs'.length ≤ cs.length

/-- The class whose lexemes can begin with a character, if any can. -/
def classOf (c : Char) : LexemeClass :=
  if Text.isBlank c then .blank
  else if isNumberChar c then .number
  else if isNameStart c then .name
  else if c = '(' then .opening
  else if c = ')' then .closing
  else if c = ',' then .comma
  else .operator

theorem LexemeClass.Has.head {kind : LexemeClass} {cs : List Char} (has : kind.Has cs)
    : ∃ first rest, cs = first :: rest ∧ classOf first = kind := by
  cases kind with
  | blank =>
      obtain ⟨first, rest, rfl⟩ := List.exists_cons_of_ne_nil has.1
      exact ⟨first, rest, rfl, by simp [classOf, has.2 first List.mem_cons_self]⟩
  | number =>
      obtain ⟨first, rest, rfl⟩ := List.exists_cons_of_ne_nil has.1
      have digit := has.2 first List.mem_cons_self
      have notBlank := (classes_disjoint (toNat_lt_of_isNumberChar digit)).2 digit
      exact ⟨first, rest, rfl, by simp [classOf, notBlank, digit]⟩
  | name =>
      obtain ⟨first, rest, rfl, opens, -⟩ := has
      obtain ⟨notBlank, notNumber⟩ :=
        (classes_disjoint (toNat_lt_of_isNameStart opens)).1 opens
      exact ⟨first, rest, rfl, by simp [classOf, notBlank, notNumber, opens]⟩
  | operator =>
      simp only [Has, operatorTexts, List.mem_cons, List.not_mem_nil, or_false] at has
      rcases has with
        rfl | rfl | rfl | rfl | rfl | rfl | rfl | rfl | rfl | rfl | rfl | rfl | rfl | rfl
      all_goals exact ⟨_, _, rfl, rfl⟩
  | opening =>
      obtain rfl := has
      exact ⟨_, _, rfl, rfl⟩
  | closing =>
      obtain rfl := has
      exact ⟨_, _, rfl, rfl⟩
  | comma =>
      obtain rfl := has
      exact ⟨_, _, rfl, rfl⟩

/-- The longest lexeme at the start of a text is the only one, with its class. -/
theorem LongestLexeme.unique {kind kind' : LexemeClass} {text cs cs' : List Char}
    (lexeme : LongestLexeme kind text cs) (lexeme' : LongestLexeme kind' text cs')
    : kind = kind' ∧ cs = cs' := by
  have below := lexeme.longest _ _ lexeme'.has lexeme'.starts
  have above := lexeme'.longest _ _ lexeme.has lexeme.starts
  have starts := List.prefix_of_prefix_length_le lexeme.starts lexeme'.starts above
  obtain rfl := starts.eq_of_length (Nat.le_antisymm above below)
  obtain ⟨first, rest, rfl, own⟩ := lexeme.has.head
  obtain ⟨first', rest', same, own'⟩ := lexeme'.has.head
  obtain ⟨rfl, rfl⟩ : first = first' ∧ rest = rest' := by simpa using same
  exact ⟨own.symm.trans own', rfl⟩

/-- Blanks begin with a blank. -/
theorem LongestLexeme.isBlank {first : Char} {rest cs : List Char}
    (lexeme : LongestLexeme .blank (first :: rest) cs)
    : Text.isBlank first = true := by
  obtain ⟨first', cs, rfl, -⟩ := lexeme.has.head
  obtain ⟨rfl, -⟩ := List.cons_prefix_cons.mp lexeme.starts
  exact lexeme.has.2 first' List.mem_cons_self

/-- A start of a text within a set of characters is no longer than the run there. -/
theorem length_le_takeWhile {inside : Char → Bool} {cs text : List Char}
    (within : ∀ c ∈ cs, inside c = true) (starts : cs <+: text)
    : cs.length ≤ (text.takeWhile inside).length := by
  obtain ⟨behind, rfl⟩ := starts
  rw [List.takeWhile_append_of_pos within, List.length_append]
  exact Nat.le_add_right _ _

/-- The lexeme of a class that begins with a character is the longest of all, where no text of the
class goes further.
-/
theorem LongestLexeme.of_class {kind : LexemeClass} {first : Char} {rest cs : List Char}
    (has : kind.Has (first :: cs)) (starts : cs <+: rest)
    (longest : ∀ cs', kind.Has (first :: cs') → cs' <+: rest → cs'.length ≤ cs.length)
    : LongestLexeme kind (first :: rest) (first :: cs) where
  has := has
  starts := List.cons_prefix_cons.mpr ⟨rfl, starts⟩
  longest := by
    intro other cs' has' starts'
    obtain ⟨first', rest', rfl, own'⟩ := has'.head
    obtain ⟨rfl, behind⟩ := List.cons_prefix_cons.mp starts'
    -- both begin with the same character, which belongs to one class
    obtain ⟨_, _, same, own⟩ := has.head
    obtain ⟨rfl, rfl⟩ := List.cons.inj same
    obtain rfl : kind = other := own.symm.trans own'
    exact Nat.succ_le_succ (longest rest' has' behind)

/-- A run of characters within a set is the longest lexeme, if the texts of its class that begin as
it does are those that go on within the set.
-/
theorem LongestLexeme.run {kind : LexemeClass} {inside : Char → Bool} {first : Char}
    (rest : List Char)
    (goesOn : ∀ cs, kind.Has (first :: cs) ↔ ∀ c ∈ cs, inside c = true)
    : LongestLexeme kind (first :: rest) ((first :: rest).take (1 + runLength inside rest)) := by
  rw [take_runLength]
  refine .of_class ((goesOn _).mpr fun c member => List.mem_takeWhile_imp member)
    (List.takeWhile_prefix inside) fun cs' has starts => ?_
  exact length_le_takeWhile ((goesOn _).mp has) starts

/-- An operator is a single character or a pair, as the scanner tells them. -/
theorem mem_operatorTexts_iff {first : Char} {cs : List Char}
    : first :: cs ∈ operatorTexts
      ↔ cs = [] ∧ isOperatorChar first = true
        ∨ ∃ second, cs = [second] ∧ isOperatorPair first second = true := by
  simp only [operatorTexts, isOperatorChar, isOperatorPair, List.mem_cons, List.not_mem_nil,
    List.contains_eq_mem, decide_eq_true_eq, Prod.mk.injEq, List.cons.injEq, or_false]
  grind

/-- An operator of two characters is taken where there is one, and one of a single character only
where there is not.
-/
theorem longestLexeme_operator {first : Char} {rest : List Char} {length : Nat}
    (found : operatorLength first rest = some length)
    : LongestLexeme .operator (first :: rest) ((first :: rest).take length)
      ∧ length ≤ (first :: rest).length := by
  cases rest with
  | nil =>
      simp only [operatorLength, Option.ite_none_right_eq_some, Option.some.injEq] at found
      obtain ⟨single, rfl⟩ := found
      refine ⟨.of_class (mem_operatorTexts_iff.mpr (.inl ⟨rfl, single⟩)) List.nil_prefix ?_,
        by simp⟩
      intro cs' _ starts
      exact starts.length_le
  | cons second others =>
      by_cases pair : isOperatorPair first second = true
      · obtain rfl : 2 = length := by simpa [operatorLength, pair] using found
        have starts : [second] <+: second :: others := List.prefix_append [second] others
        refine ⟨.of_class (mem_operatorTexts_iff.mpr (.inr ⟨second, rfl, pair⟩)) starts ?_,
          by simp⟩
        intro cs' has _
        rcases mem_operatorTexts_iff.mp has with ⟨rfl, -⟩ | ⟨_, rfl, -⟩
        · exact Nat.zero_le _
        · exact le_rfl
      · obtain ⟨single, rfl⟩ : isOperatorChar first = true ∧ 1 = length := by
          simpa [operatorLength, pair] using found
        refine ⟨.of_class (mem_operatorTexts_iff.mpr (.inl ⟨rfl, single⟩)) List.nil_prefix ?_,
          by simp⟩
        intro cs' has starts
        rcases mem_operatorTexts_iff.mp has with ⟨rfl, -⟩ | ⟨second', rfl, pair'⟩
        · exact Nat.zero_le _
        · obtain ⟨rfl, -⟩ := List.cons_prefix_cons.mp starts
          exact absurd pair' pair

/-- What the scanner finds at the start of a text is the longest lexeme there. -/
theorem longestLexeme_of_lexemeAt? {first : Char} {rest : List Char} {lexeme : Lexeme}
    (found : lexemeAt? first rest = some lexeme)
    : LongestLexeme lexeme.kind (first :: rest) ((first :: rest).take lexeme.length)
      ∧ lexeme.length ≤ (first :: rest).length := by
  have short : ∀ inside, 1 + runLength inside rest ≤ (first :: rest).length := by
    intro inside
    rw [List.length_cons, Nat.add_comm]
    exact Nat.succ_le_succ (List.takeWhile_prefix inside).length_le
  rcases lexemeAt?_cases found with
    ⟨blank, rfl⟩ | ⟨digit, rfl⟩ | ⟨opens, rfl⟩ | ⟨rfl, rfl⟩ | ⟨rfl, rfl⟩ | ⟨rfl, rfl⟩
      | ⟨length, operator, rfl⟩
  · exact ⟨.run rest (by simp [LexemeClass.Has, blank]), short _⟩
  · exact ⟨.run rest (by simp [LexemeClass.Has, digit]), short _⟩
  · exact ⟨.run rest (by simp [LexemeClass.Has, IsName, opens]), short _⟩
  · exact ⟨.of_class rfl (List.nil_prefix) (by simp [LexemeClass.Has]), by simp⟩
  · exact ⟨.of_class rfl (List.nil_prefix) (by simp [LexemeClass.Has]), by simp⟩
  · exact ⟨.of_class rfl (List.nil_prefix) (by simp [LexemeClass.Has]), by simp⟩
  · exact longestLexeme_operator operator

/-- Where the scanner finds nothing, no lexeme stands at the start of the text. -/
theorem no_lexeme_of_lexemeAt? {first : Char} {rest : List Char}
    (found : lexemeAt? first rest = none) (kind : LexemeClass) (cs : List Char)
    (has : kind.Has cs)
    : ¬ cs <+: first :: rest := by
  intro starts
  obtain ⟨first', cs, rfl, own⟩ := has.head
  obtain ⟨rfl, tail⟩ := List.cons_prefix_cons.mp starts
  unfold lexemeAt? at found
  unfold classOf at own
  split_ifs at found own with blank number name opening closing comma
  subst own
  -- only an operator could stand there, of one character or of two
  rcases mem_operatorTexts_iff.mp has with ⟨rfl, single⟩ | ⟨second, rfl, pair⟩
  · cases rest with
    | nil => simp [operatorLength, single] at found
    | cons second others =>
        by_cases pair : isOperatorPair first' second = true <;>
          simp [operatorLength, single, pair] at found
  · obtain ⟨behind, rfl⟩ := tail
    simp [operatorLength, pair] at found

/-- The scanner finds the longest lexeme at the start of a text. -/
theorem LongestLexeme.lexemeAt? {kind : LexemeClass} {text cs : List Char}
    (lexeme : LongestLexeme kind text cs)
    : ∃ first rest behind, cs = first :: rest ∧ text = first :: (rest ++ behind)
        ∧ Formula.lexemeAt? first (rest ++ behind) = some ⟨kind, 1 + rest.length⟩ := by
  obtain ⟨first, rest, rfl, -⟩ := lexeme.has.head
  obtain ⟨behind, rfl⟩ := lexeme.starts
  refine ⟨first, rest, behind, rfl, rfl, ?_⟩
  cases found : Formula.lexemeAt? first (rest ++ behind) with
  | none => exact absurd lexeme.starts (no_lexeme_of_lexemeAt? found kind _ lexeme.has)
  | some found' =>
      obtain ⟨longest, short⟩ := longestLexeme_of_lexemeAt? found
      obtain ⟨rfl, same⟩ := lexeme.unique longest
      have length := congrArg List.length same
      rw [List.length_take_of_le short, List.length_cons] at length
      rw [← Nat.add_comm, length]

end Wavetable.Formula
