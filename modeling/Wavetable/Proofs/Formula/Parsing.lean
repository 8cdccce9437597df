import Wavetable.Proofs.Formula.Completeness
import Wavetable.Proofs.Formula.Scanning

/-!
The parser accepts exactly what the grammar derives within the limit on open levels, and it
returns the derived tree.
-/

namespace Wavetable.Formula

/-- A whole phrase is read with nothing left, where its levels fit. -/
theorem Phrase.reads_all {tokens e depth} (phrase : Phrase 0 tokens e depth) (stop : Nat)
    {room : Nat} (fits : depth ≤ room)
    : (level stop (room + 1)).expression 0 tokens = .ok (e, []) := by
  have read := phrase.reads stop room fits (Nat.zero_le _) (.nil 0)
  rwa [List.append_nil, climb_of_stops (Stops.nil 0)] at read

theorem Phrase.overflows_all {tokens e depth} (phrase : Phrase 0 tokens e depth) (stop : Nat)
    {room : Nat} (beyond : room ≤ depth)
    : TooDeep ((level stop room).expression 0 tokens) := by
  have deep := phrase.overflows stop room beyond (Nat.zero_le _) (.nil 0)
  rwa [List.append_nil] at deep

/-- Two derivations from the same tokens have as many levels: with room for the shallower one only,
the parser would both read the tokens and refuse them.
-/
theorem Phrase.depth_le {tokens e e' depth depth'} (phrase : Phrase 0 tokens e depth)
    (phrase' : Phrase 0 tokens e' depth')
    : depth ≤ depth' := by
  by_contra more
  obtain ⟨position, refused⟩ := phrase.overflows_all 0 (Nat.lt_of_not_le more)
  rw [phrase'.reads_all 0 le_rfl] at refused
  contradiction

/-- A token list derives at most one formula, with one number of levels. -/
theorem Derives.unique {tokens : List Token} {e e' : Expr} {levels levels' : Nat}
    (derived : Derives tokens e levels) (derived' : Derives tokens e' levels')
    : e = e' ∧ levels = levels' := by
  obtain ⟨depth, phrase, rfl⟩ := derived
  obtain ⟨depth', phrase', rfl⟩ := derived'
  obtain rfl : depth = depth' := Nat.le_antisymm (phrase.depth_le phrase') (phrase'.depth_le phrase)
  have same := (phrase.reads_all 0 le_rfl).symm.trans (phrase'.reads_all 0 le_rfl)
  exact ⟨by simpa using same, rfl⟩

theorem Derives.parse_ok {tokens : List Token} {e : Expr} {levels : Nat}
    (derived : Derives tokens e levels) (fits : levels ≤ maxNesting)
    : parse tokens = .ok e := by
  obtain ⟨depth, phrase, rfl⟩ := derived
  have room : depth ≤ 199 := Nat.le_of_succ_le_succ fits
  simp [parse, maxNesting, phrase.reads_all _ room, atEnd]

theorem Derives.parse_tooDeep {tokens : List Token} {e : Expr} {levels : Nat}
    (derived : Derives tokens e levels) (beyond : maxNesting < levels)
    : TooDeep (parse tokens) := by
  obtain ⟨depth, phrase, rfl⟩ := derived
  obtain ⟨position, refused⟩ := phrase.overflows_all (endOf tokens) (Nat.le_of_lt_succ beyond)
  exact ⟨position, by simp [parse, refused]⟩

/-- What is accepted is derived within the limit, if no token marks an end before the last. -/
theorem derives_of_parse {tokens : List Token} {e : Expr}
    (noEnd : ∀ token ∈ tokens, token.kind ≠ .ending) (accepted : parse tokens = .ok e)
    : ∃ levels, Derives tokens e levels ∧ levels ≤ maxNesting := by
  unfold parse at accepted
  split at accepted
  · simp at accepted
  next e' rest read =>
    obtain ⟨used, depth, rfl, phrase, fits, -⟩ :=
      (level_sound _ maxNesting).expression (Nat.zero_le _) read
    split at accepted
    next ended =>
      obtain rfl : e' = e := by simpa using accepted
      cases rest with
      | nil => exact ⟨depth + 1, ⟨depth, by simpa using phrase, rfl⟩, fits⟩
      | cons token rest =>
          -- a token that is left over marks an end, which the tokens do not hold
          have marked : token.kind = .ending := by simpa [atEnd, nextKind?] using ended
          exact absurd marked (noEnd token (by simp))
    next => simp [refuse] at accepted

/-- For the tokens of any source, the parser returns a tree exactly where the grammar derives that
tree with at most two hundred levels open at once; every other list of them is refused with a
syntax error. The grammar is unambiguous, so the tree and the number of levels are those of the
only derivation.
-/
theorem parse_ok_iff_derives {source : String} {tokens : List Token}
    (scanned : tokenize source = .ok tokens)
    : (∀ e, parse tokens = .ok e ↔ ∃ levels, Derives tokens e levels ∧ levels ≤ 200)
      ∧ ((∀ e levels, Derives tokens e levels → 200 < levels)
          → ∃ error, parse tokens = .error error)
      ∧ ∀ e e' levels levels',
          Derives tokens e levels
          → Derives tokens e' levels'
          → e = e' ∧ levels = levels' := by
  have noEnd : ∀ token ∈ tokens, token.kind ≠ .ending := by
    intro token member ends
    simpa [Token.Lexical, ends] using tokenize_lexical scanned token member
  refine ⟨fun e => ⟨derives_of_parse noEnd, ?_⟩, ?_, ?_⟩
  · rintro ⟨levels, derived, fits⟩
    exact derived.parse_ok fits
  · intro underivable
    cases result : parse tokens with
    | error error => exact ⟨error, rfl⟩
    | ok e =>
        obtain ⟨levels, derived, fits⟩ := derives_of_parse noEnd result
        exact absurd (underivable e levels derived) (Nat.not_lt.mpr fits)
  · intro e e' levels levels' derived derived'
    exact derived.unique derived'

/-- A power takes a signed operand to its left, and a plus sign touches the parenthesis that a call
opens to its right.
-/
theorem parse_ok_iff_derives_signed_power
    : ∃ tokens levels,
        tokenize "-2 ^ +max(x, 1)" = .ok tokens
        ∧ Derives tokens
            (.binary .power (.unary .negate (.number 2.0))
              (.unary .keep (.call "max" [.var "x", .number 1.0])))
            levels
        ∧ levels ≤ 200 := by
  have scanned : tokenize "-2 ^ +max(x, 1)" = .ok
      [⟨.operator, "-", 0, "-"⟩, ⟨.number 2.0, "2", 1, "2"⟩, ⟨.operator, "^", 3, "^"⟩,
       ⟨.operator, "+", 5, "+"⟩, ⟨.name, "max", 6, "max"⟩, ⟨.opening, "(", 9, "("⟩,
       ⟨.name, "x", 10, "x"⟩, ⟨.comma, ",", 11, ","⟩, ⟨.number 1.0, "1", 13, "1"⟩,
       ⟨.closing, ")", 14, ")"⟩] := by decide +kernel
  obtain ⟨levels, derived, fits⟩ := ((parse_ok_iff_derives scanned).1 _).mp rfl
  exact ⟨_, levels, scanned, derived, fits⟩

end Wavetable.Formula
