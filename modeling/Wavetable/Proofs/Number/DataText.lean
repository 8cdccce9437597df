import Wavetable.Proofs.Number.Numerals
import Wavetable.Proofs.Number.Order
import Wavetable.Proofs.Number.Unsigned

/-!
Doubles in data read back. No numeral that data writes begins with an idle zero, and every decimal
that has the value of the shortest one is read as the double.
-/

namespace Wavetable.Number

open Float.Model (UnpackedFloat)

-----------------------------------------------------------------------------------------
-- First digits
-----------------------------------------------------------------------------------------

/-- A text with no digit behind a zero that it begins with. -/
def NoIdleZero (cs : List Char) : Prop :=
  ∀ rest, cs = '0' :: rest → EndsDigits rest

theorem NoIdleZero.append_point {cs : List Char} (first : NoIdleZero cs) (behind : List Char)
    : NoIdleZero (cs ++ '.' :: behind) := by
  intro rest written
  cases cs with
  | nil => cases written
  | cons c more =>
      obtain ⟨rfl, rfl⟩ := List.cons.inj written
      have ends := first more rfl
      cases more with
      | nil => exact .cons (by decide)
      | cons next more => exact .cons (ends next rfl)

theorem noIdleZero_digitChars (n : Nat) : NoIdleZero (digitChars n) := by
  intro rest written
  rcases Nat.eq_zero_or_pos n with rfl | positive
  · obtain ⟨-, rfl⟩ := List.cons.inj written
    exact .nil
  · have other := head_digitChars_ne_zero positive
    simp [written] at other

/-- Padding puts zeros before the last places alone, and so one zero at most before them. -/
theorem noIdleZero_take_paddedDigits (places n : Nat)
    : NoIdleZero ((paddedDigits (places + 1) n).take
        ((paddedDigits (places + 1) n).length - places)) := by
  unfold paddedDigits
  dsimp only
  rcases Nat.lt_or_ge (places + 1) (digitChars n).length with long | short
  · intro rest written
    have positive : 0 < n := by
      rcases Nat.eq_zero_or_pos n with rfl | positive
      · exact absurd long (by simp [digitChars])
      · exact positive
    have none : places + 1 - (digitChars n).length = 0 := by omega
    rw [none, List.replicate_zero, List.nil_append] at written
    have first := congrArg List.head? written
    rw [List.head?_take, if_neg (by omega)] at first
    exact absurd first (head_digitChars_ne_zero positive)
  · have one : (List.replicate (places + 1 - (digitChars n).length) '0' ++ digitChars n).length
        = places + 1 := by
      rw [List.length_append, List.length_replicate]
      omega
    intro rest written
    have alone := congrArg List.length written
    rw [one, List.length_take, one, List.length_cons] at alone
    obtain rfl : rest = [] := List.length_eq_zero_iff.mp (by omega)
    exact .nil

theorem noIdleZero_positionalChars (digits : Nat) (exponent : Int)
    : NoIdleZero (positionalChars digits exponent) := by
  unfold positionalChars
  split
  next => exact noIdleZero_digitChars _
  next => exact (noIdleZero_take_paddedDigits _ digits).append_point _

theorem noIdleZero_dataChars (mantissa : Nat) (exponent : Int)
    : NoIdleZero (dataChars mantissa exponent) := by
  unfold dataChars
  dsimp only
  split
  next =>
    intro rest written
    generalize digitChars _ = cs at written
    match cs, written with
    | [c], written =>
        obtain ⟨-, rfl⟩ := List.cons.inj written
        exact .cons (by decide)
    | c :: next :: more, written =>
        obtain ⟨-, rfl⟩ := List.cons.inj written
        exact .cons (by decide)
  next =>
    have first := noIdleZero_positionalChars (shortest mantissa exponent).digits
      (shortest mantissa exponent).exponent
    split
    next => exact first
    next => exact first.append_point _

-----------------------------------------------------------------------------------------
-- Decimals of one value
-----------------------------------------------------------------------------------------

theorem digitsValue_append_singleton (digits : List Char) (c : Char)
    : digitsValue (digits ++ [c]) = 10 * digitsValue digits + (c.toNat - '0'.toNat) := by
  simp [digitsValue, List.foldl_append]

/-- Digits write a number below the power of ten of their count. -/
theorem digitsValue_lt {digits : List Char} (each : ∀ c ∈ digits, c.isDigit = true)
    : digitsValue digits < 10 ^ digits.length := by
  induction digits using List.reverseRecOn with
  | nil => decide
  | append_singleton digits c ih =>
      rw [List.forall_mem_append, List.forall_mem_singleton] at each
      have before := ih each.1
      have small : c.toNat - '0'.toNat < 10 := by
        have digit := Char.isDigit_iff_toNat.mp each.2
        change 48 ≤ c.toNat ∧ c.toNat ≤ 57 at digit
        change c.toNat - 48 < 10
        omega
      rw [digitsValue_append_singleton, List.length_append, List.length_singleton, pow_succ]
      omega

/-- Digits that do not begin with a zero write no number below the power of ten of their places but
the first.
-/
theorem pow_le_digitsValue {first : Char} {rest : List Char} (digit : first.isDigit = true)
    (other : first ≠ '0')
    : 10 ^ rest.length ≤ digitsValue (first :: rest) := by
  induction rest using List.reverseRecOn with
  | nil =>
      have least : 48 ≤ first.toNat := (Char.isDigit_iff_toNat.mp digit).1
      have apart : first.toNat ≠ 48 := fun same => other (Char.toNat_inj.mp same)
      change 1 ≤ 10 * 0 + (first.toNat - 48)
      omega
  | append_singleton rest c ih =>
      rw [← List.cons_append, digitsValue_append_singleton, List.length_append,
        List.length_singleton, pow_succ]
      omega

theorem two_zpow_lt_ten_zpow : (2 : ℚ) ^ (1075 : Int) < 10 ^ (400 : Int) :=
  calc (2 : ℚ) ^ (1075 : Int) < 2 ^ (3 * 400 : Int) :=
        zpow_lt_zpow_right₀ (by norm_num) (by norm_num)
    _ = (2 ^ (3 : Int)) ^ (400 : Int) := zpow_mul _ _ _
    _ ≤ 10 ^ (400 : Int) := zpow_le_zpow_left₀ (by norm_num) (by norm_num) (by norm_num)

/-- A decimal in the range of the doubles has a power of ten in the range that is computed. -/
theorem power_within {digits length : Nat} {power : Int} (short : digits < 10 ^ length)
    (lower : (2 : ℚ) ^ (-1075 : Int) ≤ digits * 10 ^ power)
    (upper : (digits * 10 ^ power : ℚ) < 2 ^ (1024 : Int))
    : -400 ≤ power + length ∧ power ≤ 400 := by
  constructor
  · by_contra tiny
    have short : (digits : ℚ) ≤ 10 ^ (length : Int) := by exact_mod_cast short.le
    refine absurd lower (not_le.mpr ?_)
    calc (digits * 10 ^ power : ℚ) ≤ 10 ^ (length : Int) * 10 ^ power :=
          mul_le_mul_of_nonneg_right short (by positivity)
      _ = 10 ^ (power + length) := by rw [← zpow_add₀ (by norm_num), add_comm]
      _ ≤ 10 ^ (-400 : Int) := zpow_le_zpow_right₀ (by norm_num) (by omega)
      _ < 2 ^ (-1075 : Int) := by
        rw [zpow_neg, zpow_neg]
        exact inv_strictAnti₀ (by positivity) two_zpow_lt_ten_zpow
  · by_contra huge
    have one : (1 : ℚ) ≤ digits := by
      exact_mod_cast Nat.pos_of_ne_zero (power_bounds lower upper).1
    refine absurd upper (not_lt.mpr ?_)
    calc (2 : ℚ) ^ (1024 : Int) ≤ 2 ^ (1075 : Int) :=
          zpow_le_zpow_right₀ (by norm_num) (by norm_num)
      _ ≤ 10 ^ (400 : Int) := two_zpow_lt_ten_zpow.le
      _ ≤ 10 ^ power := zpow_le_zpow_right₀ (by norm_num) (by omega)
      _ ≤ digits * 10 ^ power := le_mul_of_one_le_left (by positivity) one

section
variable {x : Float} {whole fraction : List Char} {power : Int} {mantissa : Nat} {exponent : Int}

/-- A decimal with the value of the shortest one of a positive double is read as that double. -/
theorem ofDecimal_of_value {positive : 0 < mantissa}
    (unpacked : x.toModel.unpack = .finite .positive mantissa exponent positive)
    (each : ∀ c ∈ whole ++ fraction, c.isDigit = true)
    (value : (digitsValue (whole ++ fraction) : ℚ) * 10 ^ (power - fraction.length)
      = (shortest mantissa exponent).value)
    : ofDecimal whole fraction power = x := by
  have canonical : IsCanonical mantissa exponent := isCanonical_unpack unpacked
  have rounds := shortest_rounds canonical positive
  have same := value.trans (div_mul_cancel₀ (shortest mantissa exponent).value
    (show (2 : ℚ) ^ exponent ≠ 0 by positivity)).symm
  obtain ⟨lower, upper⟩ := rounds.bounds canonical positive
  rw [← same] at lower upper
  obtain ⟨least, most⟩ := power_within (digitsValue_lt each) lower upper
  exact nearestDouble_eq unpacked rounds same least most

/-- A decimal with the value of the shortest one is read as the double, but for its sign. -/
theorem withSign_ofDecimal {negative : Bool}
    (parts : Double.ofFloat x = .finite negative mantissa exponent)
    (each : ∀ c ∈ whole ++ fraction, c.isDigit = true)
    (value : (digitsValue (whole ++ fraction) : ℚ) * 10 ^ (power - fraction.length)
      = (shortest mantissa exponent).value)
    : withSign negative (ofDecimal whole fraction power) = x := by
  apply eq_of_unpack
  unfold Double.ofFloat at parts
  split at parts
  next => contradiction
  next => contradiction
  next sign unpacked =>
    obtain ⟨rfl, rfl, rfl⟩ := Double.finite.inj parts
    have none : digitsValue (whole ++ fraction) = 0 := by
      have zero : (shortest 0 Double.minExponent).value = 0 := by simp [shortest, Decimal.value]
      rw [zero] at value
      have tens : (10 : ℚ) ^ (power - fraction.length) ≠ 0 := by positivity
      exact_mod_cast (mul_eq_zero.mp value).resolve_right tens
    have read : ofDecimal whole fraction power = 0.0 := by
      simp [ofDecimal, nearestDouble, none]
    rw [read, unpacked]
    cases sign
    · exact unpack_minus_zero
    · exact unpack_zero
  next sign mantissa exponent positive unpacked =>
    obtain ⟨rfl, rfl, rfl⟩ := Double.finite.inj parts
    cases sign with
    | positive =>
        have read : ofDecimal whole fraction power = x := ofDecimal_of_value unpacked each value
        change (ofDecimal whole fraction power).toModel.unpack = _
        rw [read]
    | negative =>
        have number : x.isNaN = false := congrArg UnpackedFloat.isNaN unpacked
        have mirrored : (-x).toModel.unpack = .finite .positive mantissa exponent positive := by
          rw [unpack_neg number, unpacked]
          rfl
        have read : ofDecimal whole fraction power = -x := ofDecimal_of_value mirrored each value
        change (-ofDecimal whole fraction power).toModel.unpack = _
        rw [read, unpack_neg (isNaN_neg number), mirrored, unpacked]
        rfl

end

end Wavetable.Number
