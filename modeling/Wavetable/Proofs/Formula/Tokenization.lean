import Wavetable.Proofs.Formula.Lexemes
import Wavetable.Proofs.Number.Overflow

/-!
The tokens of a source, told by their places. They are the longest lexemes where they stand, one
behind the other with blanks between them, and a source without such tokens is refused at the first
place where a token should begin and none does.
-/

namespace Wavetable.Formula

/-- The kind of token that a lexeme of a class gives; blanks give none. -/
def LexemeClass.tokenKind? (cs : List Char) : LexemeClass → Option TokenKind
  | .blank => none
  | .number => some (.number (decimalValue cs))
  | .name => some .name
  | .operator => some .operator
  | .opening => some .opening
  | .closing => some .closing
  | .comma => some .comma

/-- Digits with at most one point. -/
def IsDecimal (cs : List Char) : Prop :=
  (∃ c ∈ cs, c.isDigit = true) ∧ cs.count '.' ≤ 1

/-- A token is the longest lexeme at its place in a source. A number is a decimal with a finite
value.
-/
structure Token.IsLongestIn (token : Token) (source : List Char) : Prop where
  lexeme : ∃ kind, LongestLexeme kind (source.drop token.start) token.text.toList
    ∧ kind.tokenKind? token.text.toList = some token.kind
  word : token.word = token.text
  number : ∀ value, token.kind = .number value
    → IsDecimal token.text.toList ∧ value.isFinite = true

/-- The tokens of the part of a source from one offset up to another. None is empty, each ends
before the next one begins, its text is what stands at its place, and all characters outside the
tokens are blanks.
-/
structure Tokenizes (source : List Char) (first last : Nat) (tokens : List Token) : Prop where
  within : ∀ token ∈ tokens,
    first ≤ token.start ∧ token.start < token.finish ∧ token.finish ≤ last
  ordered : tokens.Pairwise fun token next => token.finish ≤ next.start
  slices : ∀ token ∈ tokens, token.text.toList = (source.take token.finish).drop token.start
  lexemes : ∀ token ∈ tokens, token.IsLongestIn source
  blanks : ∀ i c, first ≤ i → i < last → source[i]? = some c
    → (∀ token ∈ tokens, i < token.start ∨ token.finish ≤ i)
    → Text.isBlank c = true

/-- No token begins a text, for the given cause: its first character opens no lexeme, or the digits
and points there are no decimal, or they are one that rounds to infinity.
-/
inductive Offends (text : List Char) : SyntaxCause → Prop
  | unknown {c rest} (begins : text = c :: rest)
    (none : ∀ kind cs, LexemeClass.Has kind cs → ¬ cs <+: text)
    : Offends text (.unknownCharacter c)
  | malformed {cs} (lexeme : LongestLexeme .number text cs)
    (bad : (∀ c ∈ cs, c.isDigit = false) ∨ 1 < cs.count '.')
    : Offends text (.malformedNumber (String.ofList cs))
  | tooLarge {cs} (lexeme : LongestLexeme .number text cs) (decimal : IsDecimal cs)
    (beyond : decimalValue cs = Number.infinity)
    : Offends text (.numberTooLarge (String.ofList cs))

theorem isDecimal_iff {cs : List Char} : isDecimal cs = true ↔ IsDecimal cs := by
  simp [isDecimal, IsDecimal]

/-- The token of the longest lexeme at a place is that of its class and text. -/
theorem Token.IsLongestIn.tokenOf {token : Token} {source : List Char}
    (longest : token.IsLongestIn source)
    : ∃ kind, LongestLexeme kind (source.drop token.start) token.text.toList
        ∧ Formula.tokenOf kind token.start token.text.toList = .ok (some token) := by
  obtain ⟨⟨kind, lexeme, shown⟩, word, number⟩ := longest
  refine ⟨kind, lexeme, ?_⟩
  obtain ⟨tokenKind, tokenWord, start, text⟩ := token
  dsimp only at word shown number ⊢
  subst word
  cases kind with
  | blank => contradiction
  | number =>
      obtain rfl : .number (decimalValue tokenWord.toList) = tokenKind := Option.some.inj shown
      obtain ⟨decimal, finite⟩ := number _ rfl
      simp [Formula.tokenOf, numberToken, isDecimal_iff.mpr decimal, finite, Except.map]
  | name | operator | opening | closing | comma =>
      obtain rfl := Option.some.inj shown
      simp [Formula.tokenOf]

/-- The longest lexeme at a place is blank, gives a token, or offends. -/
theorem LongestLexeme.token_or_offends {kind : LexemeClass} {source cs : List Char} {start : Nat}
    (lexeme : LongestLexeme kind (source.drop start) cs) (visible : kind ≠ .blank)
    : (∃ token : Token, token.start = start ∧ token.text.toList = cs ∧ token.IsLongestIn source)
      ∨ ∃ cause, Offends (source.drop start) cause := by
  have plain : ∀ tokenKind, kind.tokenKind? cs = some tokenKind
      → (∀ value, tokenKind = .number value → IsDecimal cs ∧ value.isFinite = true)
      → ∃ token : Token,
          token.start = start ∧ token.text.toList = cs ∧ token.IsLongestIn source := by
    intro tokenKind shown number
    have text : (String.ofList cs).toList = cs := String.toList_ofList
    refine ⟨⟨tokenKind, String.ofList cs, start, String.ofList cs⟩, rfl, text, ?_, rfl, ?_⟩
    · exact ⟨kind, by rwa [text], by rwa [text]⟩
    · rwa [text]
  cases kind with
  | blank => contradiction
  | number =>
      by_cases decimal : IsDecimal cs
      · cases finite : (decimalValue cs).isFinite with
        | true => exact .inl (plain _ rfl (by rintro _ ⟨⟩; exact ⟨decimal, finite⟩))
        | false =>
            exact .inr ⟨_, .tooLarge lexeme decimal (Number.ofDecimal_eq_infinity finite)⟩
      · refine .inr ⟨_, .malformed lexeme ?_⟩
        rw [IsDecimal, not_and_or, not_le] at decimal
        refine decimal.imp_left fun noDigit c member => ?_
        exact Bool.eq_false_iff.mpr fun digit => noDigit ⟨c, member, digit⟩
  | name | operator | opening | closing | comma => exact .inl (plain _ rfl (by simp))

section
variable {source : List Char} {first last : Nat} {tokens : List Token}

theorem Tokenizes.nil (source : List Char) (place : Nat) : Tokenizes source place place [] where
  within := List.forall_mem_nil _
  ordered := .nil
  slices := List.forall_mem_nil _
  lexemes := List.forall_mem_nil _
  blanks _ _ above below := absurd (Nat.lt_of_le_of_lt above below) (Nat.lt_irrefl _)

/-- A blank in front of the tokens is none of them. -/
theorem Tokenizes.blank {c : Char} (tokenized : Tokenizes source (first + 1) last tokens)
    (here : source[first]? = some c) (isBlank : Text.isBlank c = true)
    : Tokenizes source first last tokens where
  within token member := (tokenized.within token member).imp_left Nat.le_of_succ_le
  ordered := tokenized.ordered
  slices := tokenized.slices
  lexemes := tokenized.lexemes
  blanks := by
    intro i c' above below found outside
    rcases Nat.eq_or_lt_of_le above with rfl | above
    · obtain rfl : c = c' := Option.some.inj (here.symm.trans found)
      exact isBlank
    · exact tokenized.blanks i c' above below found outside

/-- What stands at the place of a token. -/
theorem Token.IsLongestIn.slice {token : Token} (longest : token.IsLongestIn source)
    : token.start < token.finish ∧ token.finish ≤ source.length
      ∧ token.text.toList = (source.take token.finish).drop token.start := by
  obtain ⟨kind, lexeme, -⟩ := longest.lexeme
  obtain ⟨c, cs, text, -⟩ := lexeme.has.head
  have length : token.finish = token.start + token.text.toList.length := by
    rw [Token.finish, String.length_toList]
  have some : 0 < token.text.toList.length := by simp [text]
  have short := lexeme.starts.length_le
  rw [List.length_drop] at short
  refine ⟨by omega, by omega, ?_⟩
  rw [length, List.drop_take, Nat.add_sub_cancel_left]
  exact List.prefix_iff_eq_take.mp lexeme.starts

/-- The tokens behind a token, together with it. -/
theorem Tokenizes.cons {token : Token} (longest : token.IsLongestIn source)
    (tokenized : Tokenizes source token.finish last tokens) (below : token.finish ≤ last)
    : Tokenizes source token.start last (token :: tokens) := by
  obtain ⟨filled, -, slice⟩ := longest.slice
  constructor
  case within =>
    refine List.forall_mem_cons.mpr ⟨⟨Nat.le_refl _, filled, below⟩, fun other member => ?_⟩
    obtain ⟨behind, rest⟩ := tokenized.within other member
    exact ⟨Nat.le_trans (Nat.le_of_lt filled) behind, rest⟩
  case ordered =>
    exact .cons (fun other member => (tokenized.within other member).1) tokenized.ordered
  case slices => exact List.forall_mem_cons.mpr ⟨slice, tokenized.slices⟩
  case lexemes => exact List.forall_mem_cons.mpr ⟨longest, tokenized.lexemes⟩
  case blanks =>
    intro i c above below found outside
    obtain ⟨before | behind, others⟩ := List.forall_mem_cons.mp outside
    · omega
    · exact tokenized.blanks i c behind below found others

/-- Where no token covers the first place, the tokens are those of what stands behind it. -/
theorem Tokenizes.tail (tokenized : Tokenizes source first last tokens)
    (outside : ∀ token ∈ tokens, first < token.start ∨ token.finish ≤ first)
    : Tokenizes source (first + 1) last tokens where
  within := by
    intro token member
    obtain ⟨above, filled, below⟩ := tokenized.within token member
    rcases outside token member with before | behind
    · exact ⟨before, filled, below⟩
    · omega
  ordered := tokenized.ordered
  slices := tokenized.slices
  lexemes := tokenized.lexemes
  blanks i c above := tokenized.blanks i c (Nat.le_of_succ_le above)

/-- A token that covers the first place begins there and is the first one. -/
theorem Tokenizes.uncons (tokenized : Tokenizes source first last tokens) {token : Token}
    (member : token ∈ tokens) (begun : token.start ≤ first) (covers : first < token.finish)
    : token.start = first ∧ ∃ others, tokens = token :: others
        ∧ Tokenizes source token.finish last others := by
  obtain ⟨above, -, -⟩ := tokenized.within token member
  refine ⟨Nat.le_antisymm begun above, ?_⟩
  cases tokens with
  | nil => contradiction
  | cons head others =>
      obtain ⟨above', filled', -⟩ := tokenized.within head List.mem_cons_self
      obtain ⟨before, ordered⟩ := List.pairwise_cons.mp tokenized.ordered
      -- no token stands before the first place
      obtain rfl : token = head := by
        rcases List.mem_cons.mp member with same | later
        · exact same
        · have := before token later
          omega
      refine ⟨others, rfl, ?_⟩
      constructor
      case within =>
        intro other later
        exact ⟨before other later, (tokenized.within other (List.mem_cons_of_mem _ later)).2⟩
      case ordered => exact ordered
      case slices => exact (List.forall_mem_cons.mp tokenized.slices).2
      case lexemes => exact (List.forall_mem_cons.mp tokenized.lexemes).2
      case blanks =>
        intro i c behind below found outside
        refine tokenized.blanks i c (by omega) below found ?_
        exact List.forall_mem_cons.mpr ⟨.inr behind, outside⟩

/-- The tokens of a part of a source are those of the text up to its end alone. -/
theorem Tokenizes.take (tokenized : Tokenizes source first last tokens)
    : Tokenizes (source.take last) first last tokens where
  within := tokenized.within
  ordered := tokenized.ordered
  slices := by
    intro token member
    obtain ⟨-, -, below⟩ := tokenized.within token member
    rw [List.take_take, Nat.min_eq_left below]
    exact tokenized.slices token member
  lexemes := by
    intro token member
    obtain ⟨-, filled, below⟩ := tokenized.within token member
    obtain ⟨⟨kind, lexeme, shown⟩, word, number⟩ := tokenized.lexemes token member
    refine ⟨⟨kind, ⟨lexeme.has, ?_, ?_⟩, shown⟩, word, number⟩
    · have length : token.finish = token.start + token.text.toList.length := by
        rw [Token.finish, String.length_toList]
      rw [List.drop_take, List.prefix_take_iff]
      exact ⟨lexeme.starts, by omega⟩
    · intro other cs has starts
      rw [List.drop_take] at starts
      exact lexeme.longest other cs has (starts.trans (List.take_prefix _ _))
  blanks := by
    intro i c above below found outside
    rw [List.getElem?_take_of_lt below] at found
    exact tokenized.blanks i c above below found outside

end

/-- Blanks are passed over. -/
theorem scanAt_blanks (start : Nat) {blanks tail : List Char}
    (within : ∀ c ∈ blanks, Text.isBlank c = true) (ends : Ends Text.isBlank tail)
    : scanAt start (blanks ++ tail) = scanAt (start + blanks.length) tail := by
  have scans : Scans start blanks tail [] := by
    cases blanks with
    | nil => exact .nil start tail
    | cons c rest =>
        obtain ⟨here, others⟩ := List.forall_mem_cons.mp within
        have found : lexemeAt? c (rest ++ tail) = some ⟨.blank, 1 + rest.length⟩ := by
          simp [lexemeAt?, here, runLength_append others ends]
        exact .lexeme .blank c rest found rfl
  rw [scans]
  cases scanAt (start + blanks.length) tail <;> rfl

/-- A blank is passed over, whether or not more of them follow. -/
theorem scanAt_blank {start : Nat} {c : Char} (cs : List Char) (isBlank : Text.isBlank c = true)
    : scanAt start (c :: cs) = scanAt (start + 1) cs := by
  have within : ∀ c ∈ cs.takeWhile Text.isBlank, Text.isBlank c = true :=
    fun c member => List.mem_takeWhile_imp member
  have ends : Ends Text.isBlank (cs.dropWhile Text.isBlank) := by
    intro c head
    have outside := List.head?_dropWhile_not Text.isBlank cs
    rwa [Option.mem_def.mp head] at outside
  have one := scanAt_blanks start (List.forall_mem_cons.mpr ⟨isBlank, within⟩) ends
  have others := scanAt_blanks (start + 1) within ends
  rw [List.cons_append, List.takeWhile_append_dropWhile] at one
  rw [List.takeWhile_append_dropWhile] at others
  rw [one, others, List.length_cons, Nat.add_assoc, Nat.add_comm 1]

/-- A lexeme that gives no token ends the scan. -/
theorem scanAt_of_error {start : Nat} {kind : LexemeClass} {first : Char} {rest behind : List Char}
    {error : SyntaxError}
    (found : lexemeAt? first (rest ++ behind) = some ⟨kind, 1 + rest.length⟩)
    (refused : tokenOf kind start (first :: rest) = .error error)
    : scanAt start (first :: (rest ++ behind)) = .error error := by
  have taken : (first :: (rest ++ behind)).take (1 + rest.length) = first :: rest := by
    rw [Nat.add_comm, List.take_succ_cons, List.take_left]
  rw [scanAt, List.length_cons, scanFrom, found]
  dsimp only
  rw [taken, refused]
  rfl

/-- The place where no token begins is inside the source. -/
theorem Offends.inside {source : List Char} {place : Nat} {cause : SyntaxCause}
    (offends : Offends (source.drop place) cause)
    : place < source.length := by
  by_contra beyond
  rw [List.drop_of_length_le (Nat.le_of_not_lt beyond)] at offends
  cases offends with
  | unknown begins => contradiction
  | malformed lexeme | tooLarge lexeme =>
      obtain ⟨c, cs, rfl, -⟩ := lexeme.has.head
      cases lexeme.starts.length_le

/-- The scan of a text that begins with no token ends there. -/
theorem Offends.scanAt {text : List Char} {cause : SyntaxCause} (offends : Offends text cause)
    (start : Nat)
    : Formula.scanAt start text = .error ⟨cause, start⟩ := by
  cases offends with
  | @unknown c rest begins none =>
      subst begins
      cases found : lexemeAt? c rest with
      | none => simp [Formula.scanAt, scanFrom, found]
      | some lexeme =>
          obtain ⟨longest, -⟩ := longestLexeme_of_lexemeAt? found
          exact absurd longest.starts (none _ _ longest.has)
  | malformed lexeme bad =>
      obtain ⟨first, rest, behind, rfl, rfl, found⟩ := lexeme.lexemeAt?
      have refused : isDecimal (first :: rest) = false := by
        rw [Bool.eq_false_iff, Ne, isDecimal_iff]
        rintro ⟨⟨c, member, digit⟩, points⟩
        rcases bad with noDigit | more
        · exact Bool.noConfusion ((noDigit c member).symm.trans digit)
        · exact Nat.not_lt.mpr points more
      exact scanAt_of_error found (by simp [tokenOf, numberToken, refused, Except.map])
  | tooLarge lexeme decimal beyond =>
      obtain ⟨first, rest, behind, rfl, rfl, found⟩ := lexeme.lexemeAt?
      have infinite : Number.infinity.isFinite = false := by decide
      exact scanAt_of_error found (by
        simp [tokenOf, numberToken, isDecimal_iff.mpr decimal, beyond, infinite, Except.map])

/-- The scan goes on behind the tokens of a part of the source, by induction on the length of the
part.
-/
theorem Tokenizes.scanAt {source : List Char} {first last : Nat} {tokens : List Token}
    (tokenized : Tokenizes source first last tokens) (above : first ≤ last)
    (below : last ≤ source.length)
    : Formula.scanAt first (source.drop first)
      = (Formula.scanAt last (source.drop last)).map (tokens ++ ·) := by
  induction distance : last - first using Nat.strong_induction_on generalizing first tokens with
  | _ distance ih =>
    subst distance
    rcases Nat.eq_or_lt_of_le above with rfl | inside
    · have none : tokens = [] := by
        by_contra some
        obtain ⟨token, member⟩ := List.exists_mem_of_ne_nil tokens some
        have := tokenized.within token member
        omega
      subst none
      cases Formula.scanAt first (source.drop first) <;> rfl
    by_cases covered : ∃ token ∈ tokens, token.start ≤ first ∧ first < token.finish
    · obtain ⟨token, member, begun, covers⟩ := covered
      obtain ⟨-, -, fits⟩ := tokenized.within token member
      obtain ⟨kind, lexeme, accepted⟩ := (tokenized.lexemes token member).tokenOf
      obtain ⟨rfl, others, rfl, later⟩ := tokenized.uncons member begun covers
      obtain ⟨c, rest, behind, text, whole, found⟩ := lexeme.lexemeAt?
      have finish : token.finish = token.start + (c :: rest).length := by
        rw [Token.finish, ← String.length_toList, text]
      have left : source.drop token.finish = behind := by
        rw [finish, ← List.drop_drop, whole, ← List.cons_append, List.drop_left]
      rw [text] at accepted
      have here := Scans.token kind c rest found accepted
      have goesOn := ih _ (by omega) later fits rfl
      rw [left, finish] at goesOn
      unfold Scans at here
      rw [whole, ← List.cons_append, here, goesOn]
      cases Formula.scanAt last (source.drop last) <;> rfl
    · have outside : ∀ token ∈ tokens, first < token.start ∨ token.finish ≤ first := by
        intro token member
        by_contra meets
        exact covered ⟨token, member, by omega, by omega⟩
      have short : first < source.length := by omega
      have isBlank :=
        tokenized.blanks first _ le_rfl inside (List.getElem?_eq_getElem short) outside
      rw [List.drop_eq_getElem_cons short, scanAt_blank _ isBlank]
      exact ih _ (by omega) (tokenized.tail outside) inside rfl

/-- From every place on, there are tokens up to the end of the source or up to a place where none
begins, by induction on the length of the rest.
-/
theorem exists_tokenizes (source : List Char) (first : Nat) (within : first ≤ source.length)
    : ∃ last tokens, first ≤ last ∧ last ≤ source.length ∧ Tokenizes source first last tokens
        ∧ (last = source.length ∨ ∃ cause, Offends (source.drop last) cause) := by
  induction distance : source.length - first using Nat.strong_induction_on generalizing first with
  | _ distance ih =>
    subst distance
    rcases Nat.eq_or_lt_of_le within with rfl | inside
    · exact ⟨_, [], le_rfl, le_rfl, .nil _ _, .inl rfl⟩
    have text := List.drop_eq_getElem_cons inside
    have ends : ∀ cause, Offends (source.drop first) cause
        → ∃ last tokens, first ≤ last ∧ last ≤ source.length ∧ Tokenizes source first last tokens
          ∧ (last = source.length ∨ ∃ cause, Offends (source.drop last) cause) :=
      fun cause offends => ⟨first, [], le_rfl, within, .nil _ _, .inr ⟨cause, offends⟩⟩
    cases found : lexemeAt? source[first] (source.drop (first + 1)) with
    | none =>
        refine ends _ (.unknown text fun kind cs has => ?_)
        rw [text]
        exact no_lexeme_of_lexemeAt? found kind cs has
    | some lexeme =>
        obtain ⟨longest, -⟩ := longestLexeme_of_lexemeAt? found
        by_cases blank : lexeme.kind = .blank
        · rw [blank] at longest
          have here := List.getElem?_eq_getElem inside
          obtain ⟨last, tokens, above, below, tokenized, stops⟩ := ih _ (by omega) _ inside rfl
          exact ⟨last, tokens, Nat.le_of_succ_le above, below,
            tokenized.blank here longest.isBlank, stops⟩
        · rw [← text] at longest
          rcases longest.token_or_offends blank with ⟨token, rfl, -, shown⟩ | ⟨cause, offends⟩
          · obtain ⟨filled, fits, -⟩ := shown.slice
            obtain ⟨last, tokens, above, below, tokenized, stops⟩ := ih _ (by omega) _ fits rfl
            exact ⟨last, _, by omega, below, tokenized.cons shown above, stops⟩
          · exact ends cause offends

/-- The scan is refused at the first place where no token begins. -/
theorem Tokenizes.scan_error {source : List Char} {last : Nat} {tokens : List Token}
    {cause : SyntaxCause} (tokenized : Tokenizes source 0 last tokens)
    (below : last ≤ source.length) (offends : Offends (source.drop last) cause)
    : scan source = .error ⟨cause, last⟩ := by
  have scanned := tokenized.scanAt (Nat.zero_le last) below
  rw [List.drop_zero, offends.scanAt] at scanned
  exact scanned

theorem Tokenizes.scan_ok {source : List Char} {tokens : List Token}
    (tokenized : Tokenizes source 0 source.length tokens)
    : scan source = .ok tokens := by
  have scanned := tokenized.scanAt (Nat.zero_le _) le_rfl
  have ended : Formula.scanAt source.length [] = .ok [] := rfl
  rw [List.drop_zero, List.drop_length, ended] at scanned
  exact scanned.trans (congrArg Except.ok (List.append_nil tokens))

/-- A source is scanned to the tokens that are the longest lexemes at their places, with nothing but
blanks outside them, and to no others. Otherwise it is refused at the first place where no token
begins: a character opens no lexeme, digits and points are no decimal, or a decimal rounds to
infinity. The text before that place is scanned on its own to the tokens up to there.
-/
theorem tokenize_longest_lexemes (source : String)
    : (∀ tokens, tokenize source = .ok tokens
        ↔ Tokenizes source.toList 0 source.length tokens)
      ∧ ∀ error, tokenize source = .error error
        ↔ Offends (source.toList.drop error.position) error.cause
          ∧ ∃ tokens, Tokenizes source.toList 0 error.position tokens
            ∧ tokenize (String.ofList (source.toList.take error.position)) = .ok tokens := by
  obtain ⟨last, found, -, below, tokenized, stops⟩ :=
    exists_tokenizes source.toList 0 (Nat.zero_le _)
  have length : source.toList.length = source.length := String.length_toList
  constructor
  · intro tokens
    constructor
    · intro accepted
      rcases stops with rfl | ⟨cause, offends⟩
      · obtain rfl : found = tokens :=
          Except.ok.inj (tokenized.scan_ok.symm.trans accepted)
        exact length ▸ tokenized
      · have refused := tokenized.scan_error below offends
        cases accepted.symm.trans refused
    · intro tokenized'
      exact Tokenizes.scan_ok (length ▸ tokenized')
  · intro error
    constructor
    · intro refused
      rcases stops with rfl | ⟨cause, offends⟩
      · cases tokenized.scan_ok.symm.trans refused
      · obtain rfl : ⟨cause, last⟩ = error :=
          Except.error.inj ((tokenized.scan_error below offends).symm.trans refused)
        refine ⟨offends, found, tokenized, ?_⟩
        have alone
            : Tokenizes (source.toList.take last) 0 (source.toList.take last).length found := by
          rw [List.length_take_of_le below]
          exact tokenized.take
        rw [tokenize, String.toList_ofList]
        exact alone.scan_ok
    · rintro ⟨offends, tokens, tokenized', -⟩
      exact tokenized'.scan_error (Nat.le_of_lt offends.inside) offends

end Wavetable.Formula
