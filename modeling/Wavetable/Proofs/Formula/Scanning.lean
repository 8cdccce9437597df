import Mathlib.Data.List.TakeWhile
import Mathlib.Tactic.SplitIfs
import Wavetable.Formula.Scan

/-!
What a scan yields. Every token is a lexeme of its class, and a text that begins with a lexeme
is scanned by scanning what stands behind it.
-/

namespace Wavetable.Formula

/-- A name begins with a letter or an underscore, and goes on with these and digits. -/
def IsName (cs : List Char) : Prop :=
  ∃ first rest, cs = first :: rest ∧ isNameStart first = true ∧ ∀ c ∈ rest, isNameChar c = true

/-- A number in a formula: the finite value of digits with at most one point. -/
def IsLiteral (value : Float) : Prop :=
  value.isFinite = true ∧ ∃ cs, value = decimalValue cs

/-- A token that a scan can yield. -/
def Token.Lexical (token : Token) : Prop :=
  match token.kind with
  | .number value => IsLiteral value
  | .name => IsName token.word.toList
  | .ending => False
  | .other _ => False
  | _ => True

theorem take_runLength (first : Char) (inside : Char → Bool) (rest : List Char)
    : (first :: rest).take (1 + runLength inside rest) = first :: rest.takeWhile inside := by
  rw [runLength, Nat.add_comm, List.take_succ_cons]
  congr 1
  exact List.prefix_iff_eq_take.mp (List.takeWhile_prefix inside) |>.symm

/-- What a character opens: a run of its class, a sign of its own, or an operator. -/
theorem lexemeAt?_cases {first : Char} {rest : List Char} {lexeme : Lexeme}
    (found : lexemeAt? first rest = some lexeme)
    : (Text.isBlank first = true ∧ lexeme = ⟨.blank, 1 + runLength Text.isBlank rest⟩)
      ∨ (isNumberChar first = true ∧ lexeme = ⟨.number, 1 + runLength isNumberChar rest⟩)
      ∨ (isNameStart first = true ∧ lexeme = ⟨.name, 1 + runLength isNameChar rest⟩)
      ∨ (first = '(' ∧ lexeme = ⟨.opening, 1⟩)
      ∨ (first = ')' ∧ lexeme = ⟨.closing, 1⟩)
      ∨ (first = ',' ∧ lexeme = ⟨.comma, 1⟩)
      ∨ ∃ length, operatorLength first rest = some length ∧ lexeme = ⟨.operator, length⟩ := by
  unfold lexemeAt? at found
  split_ifs at found with blank number name opening closing comma
  · simp_all
  · simp_all
  · simp_all
  · simp_all
  · simp_all
  · simp_all
  · obtain ⟨length, operator, rfl⟩ := Option.map_eq_some_iff.mp found
    simp [operator]

theorem operatorLength_pos {first : Char} {rest : List Char} {length : Nat}
    (found : operatorLength first rest = some length)
    : 0 < length := by
  unfold operatorLength at found
  grind

/-- Every lexeme takes a character. -/
theorem lexemeAt?_length_pos {first : Char} {rest : List Char} {lexeme : Lexeme}
    (found : lexemeAt? first rest = some lexeme)
    : 0 < lexeme.length := by
  rcases lexemeAt?_cases found with
    ⟨-, rfl⟩ | ⟨-, rfl⟩ | ⟨-, rfl⟩ | ⟨-, rfl⟩ | ⟨-, rfl⟩ | ⟨-, rfl⟩ | ⟨length, operator, rfl⟩
  · exact Nat.add_pos_left Nat.one_pos _
  · exact Nat.add_pos_left Nat.one_pos _
  · exact Nat.add_pos_left Nat.one_pos _
  · exact Nat.one_pos
  · exact Nat.one_pos
  · exact Nat.one_pos
  · exact operatorLength_pos operator

/-- A name is the longest start of characters that names go on with. -/
theorem lexemeAt?_name {first : Char} {rest : List Char} {lexeme : Lexeme}
    (found : lexemeAt? first rest = some lexeme) (named : lexeme.kind = .name)
    : IsName ((first :: rest).take lexeme.length) := by
  have opens : isNameStart first = true ∧ lexeme.length = 1 + runLength isNameChar rest := by
    rcases lexemeAt?_cases found with
      ⟨-, rfl⟩ | ⟨-, rfl⟩ | ⟨start, rfl⟩ | ⟨-, rfl⟩ | ⟨-, rfl⟩ | ⟨-, rfl⟩ | ⟨_, -, rfl⟩
    all_goals first | contradiction | exact ⟨start, rfl⟩
  refine ⟨first, rest.takeWhile isNameChar, ?_, opens.1, fun c member => ?_⟩
  · rw [opens.2, take_runLength]
  · exact List.mem_takeWhile_imp member

/-- The token of a lexeme is one of its class, and blanks have none. -/
theorem tokenOf_lexical {kind : LexemeClass} {start : Nat} {cs : List Char} {token : Token}
    (named : kind = .name → IsName cs) (accepted : tokenOf kind start cs = .ok (some token))
    : token.Lexical := by
  cases kind with
  | blank => simp [tokenOf] at accepted
  | number =>
      unfold tokenOf numberToken at accepted
      dsimp only at accepted
      split at accepted
      next =>
        split at accepted
        next finite =>
          obtain rfl : _ = token := by simpa [Except.map] using accepted
          exact ⟨finite, cs, rfl⟩
        next => simp [Except.map] at accepted
      next => simp [Except.map] at accepted
  | name =>
      obtain rfl : _ = token := by simpa [tokenOf] using accepted
      simpa [Token.Lexical] using named rfl
  | operator | opening | closing | comma =>
      obtain rfl : _ = token := by simpa [tokenOf] using accepted
      trivial

/-- All tokens of a scan are lexemes, by induction on the fuel. -/
theorem scanFrom_lexical {start fuel : Nat} {cs : List Char} {tokens : List Token}
    (accepted : scanFrom start fuel cs = .ok tokens)
    : ∀ token ∈ tokens, token.Lexical := by
  induction fuel generalizing start cs tokens with
  | zero => cases cs <;> simp_all [scanFrom]
  | succ fuel ih =>
      cases cs with
      | nil => simp_all [scanFrom]
      | cons first rest =>
          unfold scanFrom at accepted
          split at accepted
          · simp at accepted
          next lexeme found =>
            cases here : tokenOf lexeme.kind start ((first :: rest).take lexeme.length) with
            | error error => simp [here, bind, Except.bind] at accepted
            | ok token? =>
                cases later : scanFrom (start + lexeme.length) fuel
                    ((first :: rest).drop lexeme.length) with
                | error error => simp [here, later, bind, Except.bind] at accepted
                | ok others =>
                    obtain rfl : token?.toList ++ others = tokens := by
                      simpa [here, later, bind, Except.bind, pure, Except.pure] using accepted
                    intro token member
                    rcases List.mem_append.mp member with first | later'
                    · obtain rfl : token? = some token := by simpa using first
                      exact tokenOf_lexical (lexemeAt?_name found) here
                    · exact ih later token later'

/-- All tokens of a source are lexemes; none of them marks an end. -/
theorem tokenize_lexical {source : String} {tokens : List Token}
    (accepted : tokenize source = .ok tokens)
    : ∀ token ∈ tokens, token.Lexical :=
  scanFrom_lexical accepted

theorem ne_ending_of_tokenize {source : String} {tokens : List Token}
    (accepted : tokenize source = .ok tokens)
    : ∀ token ∈ tokens, token.kind ≠ .ending := by
  intro token member ends
  simpa [Token.Lexical, ends] using tokenize_lexical accepted token member

end Wavetable.Formula
