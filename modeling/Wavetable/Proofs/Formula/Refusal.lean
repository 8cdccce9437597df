import Mathlib.Data.List.Chain
import Wavetable.Proofs.Formula.Prediction
import Wavetable.Proofs.Formula.Tokenization

/-!
Where a formula is refused. The text before that place is the start of a formula, as the tokens
there are completed by an operand, if one is missing, and closing parentheses, and the scanner reads
these characters as tokens of their own.
-/

namespace Wavetable.Formula

-----------------------------------------------------------------------------------------
-- Names stand apart
-----------------------------------------------------------------------------------------

/-- Two tokens that follow one another are not both names. -/
def Apart (token next : Token) : Prop :=
  token.kind = .name → next.kind ≠ .name

/-- A token that is no name stands apart from all around it. -/
theorem isChain_apart_of_kind (first : List Token) {second : List Token} {token : Token}
    (separates : token.kind ≠ .name) (before : first.IsChain Apart)
    (behind : second.IsChain Apart)
    : (first ++ token :: second).IsChain Apart := by
  refine List.isChain_append.mpr ⟨before, List.isChain_cons.mpr ⟨?_, behind⟩, ?_⟩
  · intro next _ named
    exact absurd named separates
  · intro last _ next head _
    obtain rfl : token = next := by simpa using head
    exact separates

mutual

/-- No two names follow one another in a phrase, by induction on the derivation. -/
theorem Phrase.apart {tier tokens e depth} (phrase : Phrase tier tokens e depth)
    : tokens.IsChain Apart := by
  match phrase with
  | .operand single => exact single.apart
  | .tighter inner => exact inner.apart
  | .leftward _ _ written before behind | .rightward _ written before behind =>
      exact isChain_apart_of_kind _ (by simp [written.1]) before.apart behind.apart

theorem Operand.apart {tokens e depth} (operand : Operand tokens e depth)
    : tokens.IsChain Apart := by
  match operand with
  | .number _ | .name _ => exact .singleton _
  | @Operand.emptyCall name opening closing named opens closes =>
      exact isChain_apart_of_kind [name] (by simp [opens]) (.singleton _)
        (isChain_apart_of_kind [] (by simp [closes]) .nil .nil)
  | @Operand.call name opening closing tokens args depth named opens closes inner =>
      exact isChain_apart_of_kind [name] (by simp [opens]) (.singleton _)
        (isChain_apart_of_kind _ (by simp [closes]) inner.apart .nil)
  | .group opens closes inner =>
      exact isChain_apart_of_kind [] (by simp [opens]) .nil
        (isChain_apart_of_kind _ (by simp [closes]) inner.apart .nil)
  | .sign written _ inner =>
      exact isChain_apart_of_kind [] (by simp [written.1]) .nil inner.apart

theorem Arguments.apart {tokens args depth} (listed : Arguments tokens args depth)
    : tokens.IsChain Apart := by
  match listed with
  | .last inner => exact inner.apart
  | .more inner separates rest =>
      exact isChain_apart_of_kind _ (by simp [separates]) inner.apart rest.apart

end

-----------------------------------------------------------------------------------------
-- The tokens before a place
-----------------------------------------------------------------------------------------

section
variable {source : List Char} {first place last : Nat} {tokens before after : List Token}

/-- The tokens before a place that none of them goes over. -/
theorem Tokenizes.upTo (tokenized : Tokenizes source first last (before ++ after))
    (inside : place ≤ last) (ends : ∀ token ∈ before, token.finish ≤ place)
    (begins : ∀ token ∈ after, place ≤ token.start)
    : Tokenizes source first place before := by
  have within := (List.forall_mem_append.mp tokenized.within).1
  constructor
  case within =>
    intro token member
    obtain ⟨above, filled, -⟩ := within token member
    exact ⟨above, filled, ends token member⟩
  case ordered => exact (List.pairwise_append.mp tokenized.ordered).1
  case slices => exact (List.forall_mem_append.mp tokenized.slices).1
  case lexemes => exact (List.forall_mem_append.mp tokenized.lexemes).1
  case blanks =>
    intro i c above below found outside
    refine tokenized.blanks i c above (by omega) found ?_
    refine List.forall_mem_append.mpr ⟨outside, fun token member => .inl ?_⟩
    exact Nat.lt_of_lt_of_le below (begins token member)

/-- Tokens of two parts of a source, one behind the other. -/
theorem Tokenizes.append (tokenized : Tokenizes source first place before)
    (tokenized' : Tokenizes source place last after) (above : first ≤ place) (below : place ≤ last)
    : Tokenizes source first last (before ++ after) := by
  constructor
  case within =>
    refine List.forall_mem_append.mpr ⟨fun token member => ?_, fun token member => ?_⟩
    · have := tokenized.within token member
      omega
    · have := tokenized'.within token member
      omega
  case ordered =>
    refine List.pairwise_append.mpr ⟨tokenized.ordered, tokenized'.ordered, ?_⟩
    intro token member next member'
    have := tokenized.within token member
    have := tokenized'.within next member'
    omega
  case slices => exact List.forall_mem_append.mpr ⟨tokenized.slices, tokenized'.slices⟩
  case lexemes => exact List.forall_mem_append.mpr ⟨tokenized.lexemes, tokenized'.lexemes⟩
  case blanks =>
    intro i c above' below' found outside
    obtain ⟨outside, outside'⟩ := List.forall_mem_append.mp outside
    rcases Nat.lt_or_ge i place with left | right
    · exact tokenized.blanks i c above' left found outside
    · exact tokenized'.blanks i c right below' found outside'

/-- All tokens end where the last of them does, or before. -/
theorem Tokenizes.finish_le_endOf (tokenized : Tokenizes source first last tokens)
    : ∀ token ∈ tokens, token.finish ≤ endOf tokens := by
  rcases List.eq_nil_or_concat' tokens with rfl | ⟨others, final, rfl⟩
  · simp
  · have ends : endOf (others ++ [final]) = final.finish := by simp [endOf]
    rw [ends]
    refine List.forall_mem_append.mpr ⟨fun token member => ?_, by simp⟩
    obtain ⟨-, -, ordered⟩ := List.pairwise_append.mp tokenized.ordered
    have below := ordered token member final (by simp)
    have := tokenized.within final (by simp)
    omega

theorem Tokenizes.endOf_le (tokenized : Tokenizes source 0 last tokens)
    : endOf tokens ≤ last := by
  unfold endOf
  cases final : tokens.getLast? with
  | none => exact Nat.zero_le last
  | some token => exact (tokenized.within token (List.mem_of_getLast? final)).2.2

/-- The tokens in front of those from which on a list is refused end before the place of refusal. -/
theorem Tokenizes.refused (tokenized : Tokenizes source 0 last (before ++ after))
    (placed : place = nextStart (endOf (before ++ after)) after)
    : place ≤ last ∧ Tokenizes source 0 place before := by
  cases after with
  | nil =>
      rw [List.append_nil] at tokenized placed
      obtain rfl : place = endOf before := placed
      have below := tokenized.endOf_le
      refine ⟨below, ?_⟩
      rw [← List.append_nil before] at tokenized
      exact tokenized.upTo below (by simpa using tokenized.finish_le_endOf) (by simp)
  | cons next tail =>
      obtain rfl : place = next.start := placed
      obtain ⟨-, filled, below⟩ := tokenized.within next (by simp)
      obtain ⟨-, ordered, apart⟩ := List.pairwise_append.mp tokenized.ordered
      refine ⟨by omega, tokenized.upTo (by omega) ?_ ?_⟩
      · exact fun token member => apart token member next List.mem_cons_self
      · refine List.forall_mem_cons.mpr ⟨le_rfl, fun token member => ?_⟩
        have := (List.pairwise_cons.mp ordered).1 token member
        omega

end

-----------------------------------------------------------------------------------------
-- Other characters behind a place
-----------------------------------------------------------------------------------------

/-- A lexeme with a closing parenthesis is nothing else. -/
theorem LexemeClass.Has.closing_alone {kind : LexemeClass} {cs : List Char} (has : kind.Has cs)
    (member : ')' ∈ cs)
    : cs = [')'] := by
  cases kind with
  | blank => exact absurd (has.2 _ member) (by decide)
  | number => exact absurd (has.2 _ member) (by decide)
  | name =>
      obtain ⟨first, rest, rfl, opens, within⟩ := has
      rcases List.mem_cons.mp member with rfl | later
      · exact absurd opens (by decide)
      · exact absurd (within _ later) (by decide)
  | operator =>
      have none : ∀ text ∈ operatorTexts, ')' ∉ text := by decide
      exact absurd member (none cs has)
  | opening =>
      obtain rfl := has
      exact absurd member (by decide)
  | closing => exact has
  | comma =>
      obtain rfl := has
      exact absurd member (by decide)

/-- A lexeme with a letter is a name. -/
theorem LexemeClass.Has.name_of_letter {kind : LexemeClass} {cs : List Char} (has : kind.Has cs)
    (member : 'x' ∈ cs)
    : kind = .name := by
  cases kind with
  | blank => exact absurd (has.2 _ member) (by decide)
  | number => exact absurd (has.2 _ member) (by decide)
  | name => rfl
  | operator =>
      have none : ∀ text ∈ operatorTexts, 'x' ∉ text := by decide
      exact absurd member (none cs has)
  | opening | closing | comma =>
      obtain rfl := has
      exact absurd member (by decide)

section
variable {source tail : List Char} {place : Nat} {token : Token}

/-- A token stays the longest lexeme at its place with other characters behind it, where no lexeme
goes on over the first of them.
-/
theorem Token.IsLongestIn.extend (longest : token.IsLongestIn source)
    (below : token.finish ≤ place) (inside : place ≤ source.length)
    (parts : ∀ c ∈ tail.head?, ∀ kind cs, LexemeClass.Has kind cs
      → ¬ (source.take place).drop token.start ++ [c] <+: cs)
    : token.IsLongestIn (source.take place ++ tail) := by
  obtain ⟨filled, -, slice⟩ := longest.slice
  obtain ⟨⟨kind, lexeme, shown⟩, word, number⟩ := longest
  have length : token.finish = token.start + token.text.toList.length := by
    rw [Token.finish, String.length_toList]
  have text : (source.take place ++ tail).drop token.start
      = (source.take place).drop token.start ++ tail := by
    rw [List.drop_append_of_le_length]
    rw [List.length_take_of_le inside]
    omega
  refine ⟨⟨kind, ⟨lexeme.has, ?_, ?_⟩, shown⟩, word, number⟩
  · rw [text]
    refine List.IsPrefix.trans ?_ (List.prefix_append _ _)
    rw [List.drop_take, List.prefix_take_iff]
    exact ⟨lexeme.starts, by omega⟩
  · intro other cs has starts
    rw [text] at starts
    rcases Nat.lt_or_ge ((source.take place).drop token.start).length cs.length with long | short
    next =>
      cases tail with
      | nil =>
          have := starts.length_le
          rw [List.append_nil] at this
          omega
      | cons c tail =>
          rw [List.append_cons] at starts
          refine absurd ?_ (parts c rfl other cs has)
          refine List.prefix_of_prefix_length_le (List.prefix_append _ _) starts ?_
          rw [List.length_append, List.length_singleton]
          exact long
    next =>
      refine lexeme.longest other cs has ?_
      have within := List.prefix_of_prefix_length_le starts (List.prefix_append _ _) short
      rw [List.drop_take] at within
      exact within.trans (List.take_prefix _ _)

/-- What stands from a token up to a place behind it. -/
theorem Token.IsLongestIn.length_between (longest : token.IsLongestIn source)
    (below : token.finish ≤ place) (inside : place ≤ source.length)
    : ((source.take place).drop token.start).length = place - token.start
      ∧ token.start < place := by
  obtain ⟨filled, -, -⟩ := longest.slice
  rw [List.length_drop, List.length_take_of_le inside]
  omega

/-- A closing parenthesis is no part of the tokens before it. -/
theorem Token.IsLongestIn.extend_closing (longest : token.IsLongestIn source)
    (below : token.finish ≤ place) (inside : place ≤ source.length)
    : token.IsLongestIn (source.take place ++ ')' :: tail) := by
  refine longest.extend below inside ?_
  rintro _ ⟨⟩ kind cs has starts
  obtain ⟨length, some⟩ := longest.length_between below inside
  obtain rfl := has.closing_alone (starts.subset (by simp))
  have := starts.length_le
  rw [List.length_append, length, List.length_singleton] at this
  omega

/-- A letter is no part of the tokens before it, where no name ends. -/
theorem Token.IsLongestIn.extend_letter (longest : token.IsLongestIn source)
    (below : token.finish ≤ place) (inside : place ≤ source.length)
    (named : token.kind = .name → token.finish < place)
    : token.IsLongestIn (source.take place ++ 'x' :: tail) := by
  refine longest.extend below inside ?_
  rintro _ ⟨⟩ kind cs has starts
  obtain ⟨length, some⟩ := longest.length_between below inside
  obtain rfl := has.name_of_letter (starts.subset (by simp))
  obtain ⟨⟨own, lexeme, shown⟩, -, -⟩ := longest
  -- the name goes over all that stands from the token up to the letter
  generalize between : (source.take place).drop token.start = text at starts length
  have isName : LexemeClass.name.Has text := by
    obtain ⟨first, rest, rfl, opens, within⟩ := has
    cases text with
    | nil => simp at length; omega
    | cons first' rest' =>
        obtain ⟨rfl, behind⟩ := List.cons_prefix_cons.mp starts
        refine ⟨first', rest', rfl, opens, fun c member => within c (behind.subset ?_)⟩
        exact List.mem_append_left _ member
  have begins : text <+: source.drop token.start := by
    rw [← between, List.drop_take]
    exact List.take_prefix _ _
  have short := lexeme.longest .name text isName begins
  have finish : token.finish = token.start + token.text.toList.length := by
    rw [Token.finish, String.length_toList]
  have same : token.text.toList = text := by
    refine (List.prefix_of_prefix_length_le lexeme.starts begins ?_).eq_of_length ?_ <;> omega
  obtain ⟨first, rest, text', class'⟩ := lexeme.has.head
  obtain ⟨first', rest', rfl, class''⟩ := isName.head
  obtain ⟨rfl, rfl⟩ := List.cons.inj (text'.symm.trans same)
  obtain rfl : own = .name := class'.symm.trans class''
  have kind : token.kind = .name := (Option.some.inj shown).symm
  have := named kind
  omega

end

-----------------------------------------------------------------------------------------
-- The text of a completion
-----------------------------------------------------------------------------------------

/-- The characters of a completion. -/
def completionChars (missing : Bool) (count : Nat) : List Char :=
  if missing then 'x' :: List.replicate count ')' else List.replicate count ')'

/-- A token of one character, and the tokens behind it. -/
theorem Tokenizes.cons_single {source : List Char} {last : Nat} {token : Token} {c : Char}
    {tokens : List Token} (longest : token.IsLongestIn source) (single : token.text.toList = [c])
    (tokenized : Tokenizes source (token.start + 1) last tokens) (below : token.start < last)
    : Tokenizes source token.start last (token :: tokens) := by
  have finish : token.finish = token.start + 1 := by
    rw [Token.finish, ← String.length_toList, single]
    rfl
  exact .cons longest (finish ▸ tokenized) (finish ▸ below)

/-- Closing parentheses are tokens, by induction on their number. -/
theorem tokenizes_closings {source : List Char} {place count : Nat} (inside : place ≤ source.length)
    (text : source.drop place = List.replicate count ')')
    : Tokenizes source place source.length (closings place count) := by
  induction count generalizing place with
  | zero =>
      obtain rfl : place = source.length := by
        have := List.drop_eq_nil_iff.mp text
        omega
      exact .nil _ _
  | succ count ih =>
      have filled : place < source.length := by
        have length := congrArg List.length text
        rw [List.length_drop, List.length_replicate] at length
        omega
      have rest : source.drop (place + 1) = List.replicate count ')' := by
        rw [← List.drop_drop, text]
        rfl
      have single : (")" : String).toList = [')'] := rfl
      have longest : LongestLexeme .closing (source.drop place) (")" : String).toList := by
        rw [text, single]
        exact .of_class rfl List.nil_prefix (by simp [LexemeClass.Has])
      have shown : Token.IsLongestIn ⟨.closing, ")", place, ")"⟩ source :=
        ⟨⟨.closing, longest, rfl⟩, rfl, by simp⟩
      exact .cons_single shown single (ih filled rest) filled

/-- The characters of a completion are its tokens. -/
theorem tokenizes_completion {source : List Char} {missing : Bool} {place count : Nat}
    (inside : place ≤ source.length) (text : source.drop place = completionChars missing count)
    : Tokenizes source place source.length (completion missing place count) := by
  cases missing with
  | false => exact tokenizes_closings inside text
  | true =>
      have text : source.drop place = 'x' :: List.replicate count ')' := text
      have filled : place < source.length := by
        have length := congrArg List.length text
        rw [List.length_drop, List.length_cons] at length
        omega
      have rest : source.drop (place + 1) = List.replicate count ')' := by
        rw [← List.drop_drop, text]
        rfl
      have single : ("x" : String).toList = ['x'] := rfl
      have longest : LongestLexeme .name (source.drop place) ("x" : String).toList := by
        rw [text, single]
        refine .of_class ⟨'x', [], rfl, rfl, by simp⟩ List.nil_prefix ?_
        rintro cs ⟨first, rest, same, opens, within⟩ starts
        obtain ⟨rfl, rfl⟩ := List.cons.inj same
        cases cs with
        | nil => rfl
        | cons c cs =>
            obtain rfl : c = ')' := List.eq_of_mem_replicate (starts.subset List.mem_cons_self)
            exact absurd (within _ List.mem_cons_self) (by decide)
      have shown : Token.IsLongestIn ⟨.name, "x", place, "x"⟩ source :=
        ⟨⟨.name, longest, rfl⟩, rfl, by simp⟩
      exact .cons_single shown single (tokenizes_closings filled rest) filled

/-- The tokens up to a place stay what they are with other characters behind it, if each of them
does.
-/
theorem Tokenizes.extend {source tail : List Char} {first place : Nat} {tokens : List Token}
    (tokenized : Tokenizes source first place tokens) (inside : place ≤ source.length)
    (extended : ∀ token ∈ tokens, token.IsLongestIn (source.take place ++ tail))
    : Tokenizes (source.take place ++ tail) first place tokens where
  within := tokenized.within
  ordered := tokenized.ordered
  slices token member := (extended token member).slice.2.2
  lexemes := extended
  blanks := by
    intro i c above below found outside
    rw [List.getElem?_append_left (by rwa [List.length_take_of_le inside]),
      List.getElem?_take_of_lt below] at found
    exact tokenized.blanks i c above below found outside

/-- The last token before an operand that is missing is no name. -/
theorem Tokenizes.finish_lt_of_apart {source : List Char} {place count : Nat}
    {tokens : List Token} (tokenized : Tokenizes source 0 place tokens)
    (apart : (tokens ++ completion true place count).IsChain Apart)
    : ∀ token ∈ tokens, token.kind = .name → token.finish < place := by
  rcases List.eq_nil_or_concat' tokens with rfl | ⟨others, final, rfl⟩
  · simp
  obtain ⟨-, -, ordered⟩ := List.pairwise_append.mp tokenized.ordered
  obtain ⟨-, -, junction⟩ := List.isChain_append.mp apart
  refine List.forall_mem_append.mpr ⟨fun token member _ => ?_, ?_⟩
  · have before := ordered token member final (by simp)
    have := tokenized.within final (by simp)
    omega
  · intro token member named
    obtain rfl : token = final := by simpa using member
    exact absurd rfl (junction token (by simp) _ rfl named)

/-- The text before a place, with a completion behind it, is scanned to the tokens there and those
of the completion.
-/
theorem Tokenizes.completed {source : List Char} {place count : Nat} {tokens : List Token}
    {missing : Bool} (tokenized : Tokenizes source 0 place tokens)
    (inside : place ≤ source.length)
    (apart : (tokens ++ completion missing place count).IsChain Apart)
    : scan (source.take place ++ completionChars missing count)
      = .ok (tokens ++ completion missing place count) := by
  have length : (source.take place).length = place := List.length_take_of_le inside
  have extended : ∀ token ∈ tokens,
      token.IsLongestIn (source.take place ++ completionChars missing count) := by
    intro token member
    have longest := tokenized.lexemes token member
    have below := (tokenized.within token member).2.2
    match missing, count with
    | true, count =>
        exact longest.extend_letter below inside
          (tokenized.finish_lt_of_apart apart token member)
    | false, 0 => exact longest.extend below inside (by simp [completionChars])
    | false, count + 1 => exact longest.extend_closing below inside
  have behind : Tokenizes (source.take place ++ completionChars missing count) place
      (source.take place ++ completionChars missing count).length
      (completion missing place count) := by
    refine tokenizes_completion ?_ ?_
    · rw [List.length_append, length]
      exact Nat.le_add_right _ _
    · rw [List.drop_append_of_le_length length.ge, List.drop_take, Nat.sub_self, List.take_zero,
        List.nil_append]
  refine ((tokenized.extend inside extended).append behind (Nat.zero_le _) ?_).scan_ok
  rw [List.length_append, length]
  exact Nat.le_add_right _ _

-----------------------------------------------------------------------------------------
-- Where a source is refused
-----------------------------------------------------------------------------------------

/-- A token list is refused at one of its tokens or at its end. -/
theorem parse_refused {tokens : List Token} {error : SyntaxError}
    (refused : parse tokens = .error error)
    : Refused (endOf tokens) error (FitsPhrase maxNesting 0)
        (fun list => parse list = .error error) tokens := by
  obtain ⟨ahead, -⟩ := level_looksAhead maxNesting
  have ahead := ahead 0 (Nat.zero_le 8)
  unfold parse at refused
  split at refused
  next error' taken =>
    obtain rfl : error' = error := by simpa using refused
    refine (ahead.refuses taken).mono (fun list derives => derives) fun list refuses => ?_
    rw [parse, refuses]
  next e rest taken =>
    obtain ⟨used, rfl, same⟩ := ahead.accepts taken
    obtain ⟨used', depth, same', phrase, fits, -⟩ :=
      (level_sound _ maxNesting).expression (Nat.zero_le 8) taken
    obtain rfl := List.append_cancel_right same'
    split at refused
    next => contradiction
    next more =>
      obtain rfl := Except.error.inj refused
      refine .next 0 rfl ⟨e, depth, by simpa [closings] using phrase, fits⟩ ?_
      rintro next tail tail' rfl
      have again := same next tail rfl (endOf (used ++ next :: tail')) tail'
      have more' : ¬ atEnd (next :: tail') = true := more
      simp only [parse, again, more']
      rfl

/-- A source that is scanned, but not read, is refused at one of its tokens, or at the end of the
last one where the tokens run out. Unless too many levels are open, the text before that place goes
on to a formula. Unless a plus sign is refused, every list of tokens that begins with those up to
the refused one is refused in the same way.
-/
theorem parseSource_refusal {source : String} {tokens : List Token} {error : SyntaxError}
    (scanned : tokenize source = .ok tokens) (refused : parseSource source = .error error)
    : ∃ before after,
        tokens = before ++ after
        ∧ error.position = nextStart (endOf tokens) after
        ∧ error.position ≤ source.length
        ∧ (error.message ≠ "Expression too deeply nested"
          → ∃ more e,
              parseSource (String.ofList (source.toList.take error.position) ++ more) = .ok e)
        ∧ ∀ next tail,
            after = next :: tail
            → ¬ next.Writes "+"
            → ∀ tail', parse (before ++ next :: tail') = .error error := by
  have read : parse tokens = .error error := by
    rw [parseSource, scanned] at refused
    exact refused
  obtain ⟨before, after, rfl, place, viable, settled⟩ := parse_refused read
  have tokenized := ((tokenize_longest_lexemes source).1 _).mp scanned
  obtain ⟨inside, upTo⟩ := tokenized.refused place
  refine ⟨before, after, rfl, place, inside, fun shallow => ?_, settled⟩
  have shallow : error.cause ≠ .tooDeep := by
    intro deep
    rw [SyntaxError.message, deep] at shallow
    exact shallow rfl
  obtain ⟨missing, count, e, depth, phrase, fits⟩ := viable shallow
  have completed := upTo.completed (by rwa [String.length_toList]) phrase.apart
  refine ⟨String.ofList (completionChars missing count), e, ?_⟩
  have scanned' : tokenize (String.ofList (source.toList.take error.position)
      ++ String.ofList (completionChars missing count))
        = .ok (before ++ completion missing error.position count) := by
    rw [tokenize, String.toList_append, String.toList_ofList, String.toList_ofList]
    exact completed
  have derived : Derives (before ++ completion missing error.position count) e (depth + 1) :=
    ⟨depth, phrase, rfl⟩
  rw [parseSource, scanned']
  exact derived.parse_ok fits

/-- An operand is missing in front of a closing parenthesis. The text up to there goes on to a
formula, and no list of tokens that begins with those up to the parenthesis is one.
-/
theorem parseSource_refusal_missing_operand
    : ∃ before next tail,
        tokenize "2 * (x + )" = .ok (before ++ next :: tail)
        ∧ parseSource "2 * (x + )" = .error ⟨.unexpectedToken ")", next.start⟩
        ∧ next.start = 9
        ∧ (∃ more e, parseSource ("2 * (x + " ++ more) = .ok e)
        ∧ ∀ tail', parse (before ++ next :: tail') = .error ⟨.unexpectedToken ")", 9⟩ := by
  have scanned : tokenize "2 * (x + )" = .ok
      [⟨.number 2.0, "2", 0, "2"⟩, ⟨.operator, "*", 2, "*"⟩, ⟨.opening, "(", 4, "("⟩,
       ⟨.name, "x", 5, "x"⟩, ⟨.operator, "+", 7, "+"⟩, ⟨.closing, ")", 9, ")"⟩] := by
    decide +kernel
  have refused : parseSource "2 * (x + )" = .error ⟨.unexpectedToken ")", 9⟩ := by
    rw [parseSource, scanned]
    rfl
  obtain ⟨before, after, same, place, -, viable, settled⟩ := parseSource_refusal scanned refused
  cases after with
  | nil => exact absurd place (by decide)
  | cons next tail =>
      have start : next.start = 9 := place.symm
      have closes : next.kind = .closing := by
        have member : next ∈ before ++ next :: tail := by simp
        rw [← same] at member
        simp only [List.mem_cons, List.not_mem_nil, or_false] at member
        rcases member with rfl | rfl | rfl | rfl | rfl | rfl
        all_goals first | rfl | contradiction
      refine ⟨before, next, tail, by rw [scanned, same], by rw [refused, start], start, ?_, ?_⟩
      · exact viable (by decide)
      · refine settled next tail rfl fun plus => ?_
        exact absurd (closes.symm.trans plus.1) (by decide)

end Wavetable.Formula
