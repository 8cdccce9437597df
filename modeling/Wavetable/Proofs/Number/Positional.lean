import Mathlib.Algebra.Order.Field.Power
import Mathlib.Data.Rat.Cast.Order
import Mathlib.Tactic.Ring
import Wavetable.Number.Decimal
import Wavetable.Number.Layout

/-!
Positional notation: digits, of which at least one stands before the point, and a point only where
digits follow it.
-/

namespace Wavetable.Number

theorem digitsValue_eq (cs : List Char) : digitsValue cs = Nat.ofDigitChars 10 cs 0 := rfl

theorem digitsValue_digitChars (n : Nat) : digitsValue (digitChars n) = n :=
  Nat.ofDigitChars_ten_toDigits

theorem isDigit_of_mem_digitChars {n : Nat} {c : Char} (member : c ∈ digitChars n)
    : c.isDigit = true :=
  Nat.isDigit_of_mem_toDigits (by decide) (by decide) member

section
variable {width n : Nat}

/-- Leading zeros are digits as well. -/
theorem isDigit_of_mem_paddedDigits {c : Char} (member : c ∈ paddedDigits width n)
    : c.isDigit = true := by
  rcases List.mem_append.mp member with zero | digit
  · rw [List.eq_of_mem_replicate zero]
    decide
  · exact isDigit_of_mem_digitChars digit

theorem le_length_paddedDigits (width n : Nat) : width ≤ (paddedDigits width n).length := by
  simp only [paddedDigits, List.length_append, List.length_replicate]
  omega

theorem digitsValue_paddedDigits (width n : Nat) : digitsValue (paddedDigits width n) = n := by
  unfold paddedDigits
  dsimp only
  rw [digitsValue_eq, Nat.ofDigitChars_append, Nat.ofDigitChars_replicate_zero, Nat.mul_zero]
  exact digitsValue_digitChars n

end

/-- Digits before a point and behind it. Without digits behind it there is no point. -/
def pointed (whole fraction : List Char) : List Char :=
  whole ++ if fraction = [] then [] else '.' :: fraction

/-- Digits, at least one of them, and behind them nothing, or a point and more digits. -/
inductive IsPositional : List Char → Prop
  | intro {whole fraction} (someDigits : whole ≠ [])
    (digits : ∀ c ∈ whole ++ fraction, c.isDigit = true)
    : IsPositional (pointed whole fraction)

theorem count_point_of_digits {cs : List Char} (digits : ∀ c ∈ cs, c.isDigit = true)
    : cs.count '.' = 0 := by
  refine List.count_eq_zero.mpr fun member => ?_
  have digit := digits '.' member
  contradiction

section
variable {cs : List Char}

theorem IsPositional.mem (positional : IsPositional cs) {c : Char} (member : c ∈ cs)
    : c.isDigit = true ∨ c = '.' := by
  obtain ⟨-, digits⟩ := positional
  rcases List.mem_append.mp member with before | behind
  · exact .inl (digits c (List.mem_append_left _ before))
  · split at behind
    next => contradiction
    next =>
      rcases List.mem_cons.mp behind with point | behind
      · exact .inr point
      · exact .inl (digits c (List.mem_append_right _ behind))

/-- Positional notation begins with a digit. -/
theorem IsPositional.head (positional : IsPositional cs)
    : ∃ first rest, cs = first :: rest ∧ first.isDigit = true := by
  obtain ⟨someDigits, digits⟩ := positional
  obtain ⟨first, rest, rfl⟩ := List.exists_cons_of_ne_nil someDigits
  exact ⟨first, _, rfl, digits first List.mem_cons_self⟩

theorem IsPositional.count_point_le (positional : IsPositional cs) : cs.count '.' ≤ 1 := by
  obtain ⟨-, digits⟩ := positional
  rw [List.forall_mem_append] at digits
  rw [pointed, List.count_append, count_point_of_digits digits.1]
  split
  next => exact Nat.zero_le 1
  next =>
    rw [List.count_cons_self, count_point_of_digits digits.2]

end

/-- A number in positional notation is cut at its point. -/
theorem cut_at_point {whole : List Char} (fraction : List Char)
    (digits : ∀ c ∈ whole, c.isDigit = true)
    : (pointed whole fraction).takeWhile (· ≠ '.') = whole
      ∧ ((pointed whole fraction).dropWhile (· ≠ '.')).drop 1 = fraction := by
  have before : ∀ c ∈ whole, decide (c ≠ '.') = true := by
    intro c member
    rw [decide_eq_true_eq]
    rintro rfl
    exact absurd (digits '.' member) (by decide)
  unfold pointed
  rw [List.takeWhile_append_of_pos before, List.dropWhile_append_of_pos before]
  split
  next none => simp [none]
  next => simp

/-- A whole number of units is written in positional notation, with its value. -/
theorem positionalChars_eq (digits : Nat) (exponent : Int)
    : ∃ whole fraction,
        whole ≠ [] ∧ (∀ c ∈ whole ++ fraction, c.isDigit = true)
        ∧ positionalChars digits exponent = pointed whole fraction
        ∧ (digitsValue (whole ++ fraction) : ℚ) * 10 ^ (-(fraction.length : Int))
          = digits * 10 ^ exponent := by
  unfold positionalChars
  split
  next whole =>
    obtain ⟨zeros, rfl⟩ := Int.eq_ofNat_of_zero_le whole
    refine ⟨digitChars (digits * 10 ^ zeros), [], Nat.toDigits_ne_nil, ?_, ?_, ?_⟩
    · intro c member
      rw [List.append_nil] at member
      exact isDigit_of_mem_digitChars member
    · simp [pointed]
    · rw [List.append_nil, digitsValue_digitChars]
      simp
  next fraction =>
    obtain ⟨places, rfl⟩ : ∃ places : Nat, exponent = -(places + 1 : Nat) :=
      ⟨exponent.natAbs - 1, by omega⟩
    have distance : (-(-((places + 1 : Nat) : Int))).toNat = places + 1 := by omega
    rw [distance]
    dsimp only
    -- padding leaves a digit before the point
    have long := le_length_paddedDigits (places + 1 + 1) digits
    generalize written : paddedDigits (places + 1 + 1) digits = cs at long
    have tail : (cs.drop (cs.length - (places + 1))).length = places + 1 := by
      rw [List.length_drop]
      omega
    refine ⟨cs.take (cs.length - (places + 1)), cs.drop (cs.length - (places + 1)), ?_, ?_, ?_, ?_⟩
    · intro empty
      rcases List.take_eq_nil_iff.mp empty with none | rfl
      · omega
      · simp at long
    · intro c member
      rw [List.take_append_drop, ← written] at member
      exact isDigit_of_mem_paddedDigits member
    · rw [pointed, if_neg]
      intro none
      rw [none] at tail
      contradiction
    · rw [List.take_append_drop, tail, ← written, digitsValue_paddedDigits]

theorem isPositional_positionalChars (digits : Nat) (exponent : Int)
    : IsPositional (positionalChars digits exponent) := by
  obtain ⟨whole, fraction, someDigits, within, written, -⟩ := positionalChars_eq digits exponent
  rw [written]
  exact .intro someDigits within

end Wavetable.Number
