import Wavetable.Formula.Compiled
import Wavetable.Proofs.Formula.Layout
import Wavetable.Proofs.Formula.Tokenization
import Wavetable.Proofs.Text.Blank

/-!
Blanks at the ends of a source. They move its tokens and change nothing else, so a source and the
same one without them are compiled to the same tree, or refused for the same cause.
-/

namespace Wavetable.Formula

/-- A token that stands so many characters further on. -/
def Token.movedBy (token : Token) (more : Nat) : Token :=
  { token with start := token.start + more }

/-- An error that shows so many characters further on. -/
def SyntaxError.movedBy (error : SyntaxError) (more : Nat) : SyntaxError :=
  { error with position := error.position + more }

/-- The outcome of a scan that begins so many characters further on. -/
def scannedLater (more : Nat) : Except SyntaxError (List Token) → Except SyntaxError (List Token)
  | .ok tokens => .ok (tokens.map (·.movedBy more))
  | .error error => .error (error.movedBy more)

-----------------------------------------------------------------------------------------
-- Scans that begin later
-----------------------------------------------------------------------------------------

theorem scanAt_of_none {first : Char} {rest : List Char} (start : Nat)
    (found : lexemeAt? first rest = none)
    : scanAt start (first :: rest) = .error ⟨.unknownCharacter first, start⟩ := by
  simp [scanAt, scanFrom, found]

/-- A text that begins with a lexeme has its token, if it has one, and those of what stands behind
it.
-/
theorem scanAt_of_lexeme {first : Char} {rest : List Char} {lexeme : Lexeme} (start : Nat)
    (found : lexemeAt? first rest = some lexeme)
    : scanAt start (first :: rest)
      = (tokenOf lexeme.kind start ((first :: rest).take lexeme.length)).bind fun token? =>
          (scanAt (start + lexeme.length) ((first :: rest).drop lexeme.length)).map
            (token?.toList ++ ·) := by
  have taken := lexemeAt?_length_pos found
  have fuel : ((first :: rest).drop lexeme.length).length ≤ rest.length := by
    rw [List.length_drop, List.length_cons]
    omega
  rw [scanAt, List.length_cons, scanFrom, found]
  dsimp only
  rw [scanFrom_fuel _ fuel le_rfl]
  rfl

theorem tokenOf_later (kind : LexemeClass) (start more : Nat) (cs : List Char)
    : tokenOf kind (start + more) cs
      = match tokenOf kind start cs with
        | .ok token? => .ok (token?.map (·.movedBy more))
        | .error error => .error (error.movedBy more) := by
  cases kind with
  | number =>
      simp only [tokenOf, numberToken]
      split
      next =>
        split <;> rfl
      next => rfl
  | blank | name | operator | opening | closing | comma => rfl

/-- A scan that begins further on gives the same tokens further on, by induction on the length of
the text.
-/
theorem scanAt_later (start more : Nat) (cs : List Char)
    : scanAt (start + more) cs = scannedLater more (scanAt start cs) := by
  induction size : cs.length using Nat.strong_induction_on generalizing start cs with
  | _ size ih =>
    subst size
    cases cs with
    | nil => rfl
    | cons first rest =>
        cases found : lexemeAt? first rest with
        | none => rw [scanAt_of_none _ found, scanAt_of_none _ found]; rfl
        | some lexeme =>
            have taken := lexemeAt?_length_pos found
            have shorter : ((first :: rest).drop lexeme.length).length
                < (first :: rest).length := by
              rw [List.length_drop, List.length_cons]
              omega
            have behind := ih _ shorter (start + lexeme.length) _ rfl
            rw [scanAt_of_lexeme _ found, scanAt_of_lexeme _ found, tokenOf_later,
              Nat.add_right_comm, behind]
            cases tokenOf lexeme.kind start ((first :: rest).take lexeme.length) with
            | error => rfl
            | ok token? =>
                cases scanAt (start + lexeme.length) ((first :: rest).drop lexeme.length) with
                | error => rfl
                | ok tokens => cases token? <;> rfl

-----------------------------------------------------------------------------------------
-- Blanks at the ends
-----------------------------------------------------------------------------------------

theorem isNumberChar_blank {c : Char} (blank : Text.isBlank c = true) : isNumberChar c = false := by
  by_contra digit
  rw [Bool.not_eq_false] at digit
  have visible := (classes_disjoint (toNat_lt_of_isNumberChar digit)).2 digit
  exact Bool.noConfusion (visible.symm.trans blank)

theorem isNameChar_blank {c : Char} (blank : Text.isBlank c = true) : isNameChar c = false := by
  have noNumber := isNumberChar_blank blank
  have noStart : isNameStart c = false := by
    by_contra opens
    rw [Bool.not_eq_false] at opens
    have visible := ((classes_disjoint (toNat_lt_of_isNameStart opens)).1 opens).1
    exact Bool.noConfusion (visible.symm.trans blank)
  rw [isNumberChar, Bool.or_eq_false_iff] at noNumber
  rw [isNameChar, noStart, noNumber.1, Bool.or_false]

/-- No operator has a blank for its second character. -/
theorem isOperatorPair_blank (first : Char) {c : Char} (blank : Text.isBlank c = true)
    : isOperatorPair first c = false := by
  by_contra pair
  rw [Bool.not_eq_false, isOperatorPair, List.contains_iff_mem] at pair
  simp only [List.mem_cons, Prod.mk.injEq, List.not_mem_nil, or_false] at pair
  rcases pair with
    ⟨-, rfl⟩ | ⟨-, rfl⟩ | ⟨-, rfl⟩ | ⟨-, rfl⟩ | ⟨-, rfl⟩ | ⟨-, rfl⟩
  all_goals exact Bool.noConfusion blank

section
variable {blanks : List Char} (within : ∀ c ∈ blanks, Text.isBlank c = true)

include within

/-- Blanks in front of a text are passed over, by induction on them. -/
theorem scanAt_blanks_append (start : Nat) (cs : List Char)
    : scanAt start (blanks ++ cs) = scanAt (start + blanks.length) cs := by
  induction blanks generalizing start with
  | nil => rfl
  | cons c rest ih =>
      obtain ⟨here, others⟩ := List.forall_mem_cons.mp within
      rw [List.cons_append, scanAt_blank _ here, ih others, List.length_cons, Nat.add_right_comm,
        Nat.add_assoc]

/-- A run of characters of which no blank is one does not go on over blanks. -/
theorem runLength_append_blanks {inside : Char → Bool}
    (apart : ∀ c, Text.isBlank c = true → inside c = false) (cs : List Char)
    : runLength inside (cs ++ blanks) = runLength inside cs := by
  induction cs with
  | nil =>
      cases blanks with
      | nil => rfl
      | cons c rest => simp [runLength, apart c (within c List.mem_cons_self)]
  | cons first rest ih =>
      unfold runLength at ih ⊢
      rw [List.cons_append, List.takeWhile_cons, List.takeWhile_cons]
      split
      next => rw [List.length_cons, List.length_cons, ih]
      next => rfl

theorem operatorLength_append_blanks (first : Char) (rest : List Char)
    : operatorLength first (rest ++ blanks) = operatorLength first rest := by
  cases rest with
  | cons second others => rfl
  | nil =>
      cases blanks with
      | nil => rfl
      | cons c others =>
          have pair : isOperatorPair first c = false :=
            isOperatorPair_blank first (within c List.mem_cons_self)
          simp [operatorLength, pair]

/-- What a visible character opens does not go on over blanks. -/
theorem lexemeAt?_append_blanks {first : Char} (visible : Text.isBlank first = false)
    (rest : List Char)
    : lexemeAt? first (rest ++ blanks) = lexemeAt? first rest := by
  unfold lexemeAt?
  rw [runLength_append_blanks within (fun c => isNumberChar_blank),
    runLength_append_blanks within (fun c => isNameChar_blank),
    operatorLength_append_blanks within]
  simp only [visible, Bool.false_eq_true, if_false]

/-- Blanks behind a text give no tokens, by induction on the length of the text. -/
theorem scanAt_append_blanks (start : Nat) (cs : List Char)
    : scanAt start (cs ++ blanks) = scanAt start cs := by
  induction size : cs.length using Nat.strong_induction_on generalizing start cs with
  | _ size ih =>
    subst size
    cases cs with
    | nil =>
        have passed := scanAt_blanks_append within start []
        rwa [List.append_nil] at passed
    | cons first rest =>
        cases blank : Text.isBlank first with
        | true =>
            rw [List.cons_append, scanAt_blank _ blank, scanAt_blank _ blank]
            exact ih _ (Nat.lt_succ_self _) _ _ rfl
        | false =>
            have same := lexemeAt?_append_blanks within blank rest
            cases found : lexemeAt? first rest with
            | none =>
                rw [List.cons_append, scanAt_of_none _ found,
                  scanAt_of_none _ (same.trans found)]
            | some lexeme =>
                have taken := lexemeAt?_length_pos found
                have short := (longestLexeme_of_lexemeAt? found).2
                have shorter : ((first :: rest).drop lexeme.length).length
                    < (first :: rest).length := by
                  rw [List.length_drop]
                  omega
                rw [List.cons_append, scanAt_of_lexeme _ found,
                  scanAt_of_lexeme _ (same.trans found), ← List.cons_append,
                  List.take_append_of_le_length short, List.drop_append_of_le_length short,
                  ih _ shorter _ _ rfl]

end

/-- A text is its trimmed one between blanks. -/
theorem exists_blanks_trimChars (cs : List Char)
    : ∃ before behind : List Char,
        cs = before ++ (Text.trimChars cs ++ behind)
        ∧ (∀ c ∈ before, Text.isBlank c = true)
        ∧ ∀ c ∈ behind, Text.isBlank c = true := by
  refine ⟨cs.takeWhile Text.isBlank, (cs.dropWhile Text.isBlank).rtakeWhile Text.isBlank,
    ?_, fun c => List.mem_takeWhile_imp, fun c => List.mem_rtakeWhile_imp⟩
  rw [Text.trimChars_eq, List.rdropWhile_append_rtakeWhile, List.takeWhile_append_dropWhile]

/-- A source is scanned as the trimmed one, with tokens and errors further on by the blanks at its
start.
-/
theorem tokenize_eq_trim (source : String)
    : ∃ more, tokenize source = scannedLater more (tokenize (Text.trim source)) := by
  obtain ⟨before, behind, whole, blanks, blanks'⟩ := exists_blanks_trimChars source.toList
  refine ⟨before.length, ?_⟩
  have scanned : scanAt 0 source.toList
      = scannedLater before.length (scanAt 0 (Text.trimChars source.toList)) := by
    conv_lhs => rw [whole]
    rw [scanAt_blanks_append blanks, scanAt_append_blanks blanks', scanAt_later]
  rw [tokenize, tokenize, Text.trim, String.toList_ofList]
  exact scanned

-----------------------------------------------------------------------------------------
-- Sources with the same formula
-----------------------------------------------------------------------------------------

/-- Tokens that are all moved differ in their layout alone. -/
theorem sameButLayout_movedBy (tokens : List Token) (more : Nat)
    : SameButLayout (tokens.map (·.movedBy more)) tokens where
  meanings := by
    rw [List.map_map]
    rfl
  signs i sign next sign' next' here behind here' behind' _ := by
    simp only [List.getElem?_map, here', behind', Option.map_some, Option.some.injEq]
      at here behind
    subst here behind
    simp only [Token.movedBy, Token.finish]
    omega

/-- A source and the trimmed one are parsed to the same tree, or refused for the same cause. -/
theorem parseSource_trim (source : String)
    : (∃ e, parseSource source = .ok e ∧ parseSource (Text.trim source) = .ok e)
      ∨ ∃ cause position position',
          parseSource source = .error ⟨cause, position⟩
          ∧ parseSource (Text.trim source) = .error ⟨cause, position'⟩ := by
  obtain ⟨more, later⟩ := tokenize_eq_trim source
  unfold parseSource
  rw [later]
  cases tokenize (Text.trim source) with
  | error error => exact .inr ⟨error.cause, _, error.position, rfl, rfl⟩
  | ok tokens =>
      rcases (sameButLayout_movedBy tokens more).parse_agrees with
        read | ⟨cause, position, position', refused, refused', -⟩
      · exact .inl read
      · exact .inr ⟨cause, position, position', refused, refused'⟩

/-- The layout of a source does not tell its formula. Two sources with tokens that say the same and
in which plus signs touch the tokens behind them alike are parsed to the same tree, or refused with
the same message at the same token or both at the end. A source and the same one without the blanks
at its ends are compiled to the same tree and mode, or refused with the same message.
-/
theorem formula_independent_of_layout
    : (∀ source source' tokens tokens',
        tokenize source = .ok tokens
        → tokenize source' = .ok tokens'
        → SameButLayout tokens tokens'
        → (∃ e, parseSource source = .ok e ∧ parseSource source' = .ok e)
          ∨ ∃ error error',
              parseSource source = .error error
              ∧ parseSource source' = .error error'
              ∧ error.message = error'.message
              ∧ SamePlace tokens tokens' error.position error'.position)
      ∧ ∀ source,
          (∀ formula,
            compile source = .ok formula
            → ∃ trimmed,
                compile (Text.trim source) = .ok trimmed
                ∧ trimmed.tree = formula.tree
                ∧ trimmed.mode = formula.mode)
          ∧ ∀ error,
              compile source = .error error
              → ∃ error',
                  compile (Text.trim source) = .error error'
                  ∧ error'.message = error.message := by
  constructor
  · intro source source' tokens tokens' scanned scanned' same
    simp only [parseSource, scanned, scanned']
    rcases same.parse_agrees with
      read | ⟨cause, position, position', refused, refused', there⟩
    · exact .inl read
    · exact .inr ⟨_, _, refused, refused', rfl, there⟩
  · intro source
    unfold compile
    rcases parseSource_trim source with
      ⟨e, read, read'⟩ | ⟨cause, position, position', refused, refused'⟩
    · rw [read, read']
      refine ⟨fun formula compiled => ?_, fun error failed => (by cases failed)⟩
      obtain rfl := Except.ok.inj compiled
      exact ⟨_, rfl, rfl, rfl⟩
    · rw [refused, refused']
      refine ⟨fun formula compiled => (by cases compiled), fun error failed => ?_⟩
      obtain rfl := Except.error.inj failed
      exact ⟨_, rfl, rfl⟩

/-- Of two plus signs in a row, the first stands between operands and the second touches its own,
wherever else there are blanks.
-/
theorem formula_independent_of_layout_signs
    : ∃ tokens tokens',
        tokenize "x+ +y" = .ok tokens
        ∧ tokenize " x  + +y" = .ok tokens'
        ∧ SameButLayout tokens tokens'
        ∧ parseSource " x  + +y" = .ok (.binary .add (.var "x") (.unary .keep (.var "y"))) := by
  have scanned : tokenize "x+ +y" = .ok
      [⟨.name, "x", 0, "x"⟩, ⟨.operator, "+", 1, "+"⟩, ⟨.operator, "+", 3, "+"⟩,
       ⟨.name, "y", 4, "y"⟩] := by decide +kernel
  have scanned' : tokenize " x  + +y" = .ok
      [⟨.name, "x", 1, "x"⟩, ⟨.operator, "+", 4, "+"⟩, ⟨.operator, "+", 6, "+"⟩,
       ⟨.name, "y", 7, "y"⟩] := by decide +kernel
  have same : SameButLayout
      [⟨.name, "x", 0, "x"⟩, ⟨.operator, "+", 1, "+"⟩, ⟨.operator, "+", 3, "+"⟩,
       ⟨.name, "y", 4, "y"⟩]
      [⟨.name, "x", 1, "x"⟩, ⟨.operator, "+", 4, "+"⟩, ⟨.operator, "+", 6, "+"⟩,
       ⟨.name, "y", 7, "y"⟩] := by
    refine ⟨rfl, fun i sign next sign' next' here behind here' behind' plus => ?_⟩
    match i with
    | 0 =>
        cases here
        cases plus.1
    | 1 | 2 =>
        cases here
        cases behind
        cases here'
        cases behind'
        decide
    | i + 3 => cases behind
  refine ⟨_, _, scanned, scanned', same, ?_⟩
  have read : parseSource "x+ +y" = .ok (.binary .add (.var "x") (.unary .keep (.var "y"))) := by
    simp only [parseSource, scanned]
    rfl
  rcases formula_independent_of_layout.1 _ _ _ _ scanned scanned' same with
    ⟨e, read', again⟩ | ⟨error, error', refused, -⟩
  · obtain rfl := Except.ok.inj (read.symm.trans read')
    exact again
  · cases read.symm.trans refused

end Wavetable.Formula
