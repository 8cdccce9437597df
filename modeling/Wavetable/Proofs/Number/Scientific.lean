import Wavetable.Number.Decimal
import Wavetable.Proofs.Number.Nearest

/-!
Decimals read as doubles. Products and quotients are rounded from their exact values, and so a
decimal is read as every double to which it rounds.
-/

namespace Wavetable.Number

open Float.Model (Format UnpackedFloat totalExponent)
open Float.Model.UnpackedFloat

section
variable {mantissa left right : Nat} {exponent leftExponent rightExponent : Int} {units : ℚ}
  {positive : 0 < mantissa} {leftPositive : 0 < left} {rightPositive : 0 < right}

/-- A product that rounds to a canonical form, or to one beyond the doubles. -/
theorem RoundsTo.mul (rounds : RoundsTo units mantissa exponent)
    (filled : FillsBits mantissa exponent) (full : 2 ^ 52 ≤ left)
    (same : (left * right : ℚ) * 2 ^ (leftExponent + rightExponent) = units * 2 ^ exponent)
    : mul Format.binary64 (.finite .positive left leftExponent leftPositive)
        (.finite .positive right rightExponent rightPositive)
      = .finite .positive mantissa exponent positive := by
  have located : Locates (left * right : ℚ) (left * right) .exact := by
    simp only [Locates, Nat.cast_mul]
  exact rounds.roundWithAccuracy filled positive located
    (.inr (full.trans (Nat.le_mul_of_pos_right left rightPositive))) same

/-- The remainder of a division tells where the quotient lies. -/
theorem locates_quotient (num : Nat) {den : Nat} (some : 0 < den)
    : Locates (num / den : ℚ) (num / den) (accuracyOfFraction (num % den) den) := by
  have part : num % den < den := Nat.mod_lt num some
  have whole : (den : ℚ) * (num / den : Nat) + (num % den : Nat) = num := by
    exact_mod_cast Nat.div_add_mod num den
  have some : (0 : ℚ) < den := by exact_mod_cast some
  have split : (num : ℚ) / den = (num / den : Nat) + (num % den : Nat) / den := by
    rw [← whole]
    field_simp
  rw [split]
  unfold accuracyOfFraction
  split
  next none => simp [Locates, none]
  next rest =>
    have rest : (0 : ℚ) < (num % den : Nat) := by exact_mod_cast Nat.pos_of_ne_zero rest
    cases order : compare (2 * (num % den)) den with
    | lt =>
        have half : (2 * (num % den : Nat) : ℚ) < den := by
          exact_mod_cast Nat.compare_eq_lt.mp order
        refine ⟨lt_add_of_pos_right _ (div_pos rest some), add_lt_add_right ?_ _⟩
        rw [div_lt_iff₀ some]
        linarith
    | eq =>
        have half : (2 * (num % den : Nat) : ℚ) = den := by
          exact_mod_cast Nat.compare_eq_eq.mp order
        simp only [Locates]
        rw [← half]
        field_simp
    | gt =>
        have half : (den : ℚ) < 2 * (num % den : Nat) := by
          exact_mod_cast Nat.compare_eq_gt.mp order
        have part : ((num % den : Nat) : ℚ) < den := by exact_mod_cast part
        refine ⟨add_lt_add_right ?_ _, add_lt_add_right ?_ _⟩
        · rw [lt_div_iff₀ some]
          linarith
        · rwa [div_lt_one₀ some]

/-- A quotient of mantissas that fill their bits fills the bits of a mantissa. -/
theorem full_quotient {shift : Nat} (leftPositive : 0 < left) (rightPositive : 0 < right)
    (far : right.log2 + 53 ≤ left.log2 + shift)
    : 2 ^ 52 ≤ left <<< shift / right := by
  rw [Nat.shiftLeft_eq, Nat.le_div_iff_mul_le rightPositive]
  have first : 2 ^ left.log2 ≤ left := Nat.log2_self_le leftPositive.ne'
  have second : right < 2 ^ (right.log2 + 1) := Nat.lt_log2_self
  calc 2 ^ 52 * right ≤ 2 ^ 52 * 2 ^ (right.log2 + 1) := Nat.mul_le_mul_left _ second.le
    _ = 2 ^ (right.log2 + 53) := by rw [← pow_add]; congr 1; omega
    _ ≤ 2 ^ (left.log2 + shift) := Nat.pow_le_pow_right (by decide) far
    _ = 2 ^ left.log2 * 2 ^ shift := pow_add ..
    _ ≤ left * 2 ^ shift := Nat.mul_le_mul_right _ first

/-- Division shifts the dividend until the quotient has enough bits. -/
theorem divCore_eq (left right : Nat) (leftExponent rightExponent : Int)
    : ∃ shift : Nat,
        divCore Format.binary64 left leftExponent right rightExponent
          = (left <<< shift / right, leftExponent - rightExponent - shift,
            accuracyOfFraction (left <<< shift % right) right)
        ∧ (leftExponent - rightExponent - shift ≤ -1074
          ∨ right.log2 + 53 ≤ left.log2 + shift) := by
  unfold divCore
  simp only [Format.targetExponent, totalExponent, Format.mantissaBits, Format.minExponent]
  refine ⟨_, congrArg _ (congrArg (·, _) ?_), ?_⟩ <;> omega

theorem RoundsTo.div (rounds : RoundsTo units mantissa exponent)
    (canonical : IsCanonical mantissa exponent)
    (same : (left / right : ℚ) * 2 ^ (leftExponent - rightExponent) = units * 2 ^ exponent)
    : div Format.binary64 (.finite .positive left leftExponent leftPositive)
        (.finite .positive right rightExponent rightPositive)
      = .finite .positive mantissa exponent positive := by
  obtain ⟨shift, quotient, enough⟩ := divCore_eq left right leftExponent rightExponent
  have located := locates_quotient (left <<< shift) rightPositive
  have same : ((left <<< shift : Nat) / right : ℚ) * 2 ^ (leftExponent - rightExponent - shift)
      = units * 2 ^ exponent := by
    rw [← same, zpow_sub₀ (by norm_num) _ (shift : Int), zpow_natCast, Nat.shiftLeft_eq]
    push_cast
    field_simp
  unfold UnpackedFloat.div
  simp only [quotient]
  exact rounds.roundWithAccuracy canonical.fillsBits positive located
    (enough.imp_right (full_quotient leftPositive rightPositive)) same

theorem roundsTo_self (mantissa : Nat) (exponent : Int) : RoundsTo mantissa mantissa exponent :=
  ⟨isNearest_self mantissa, fun _ _ => by linarith⟩

/-- A whole number of at most 53 bits is converted exactly. -/
theorem ofNat_eq {whole : Nat} (some : 0 < whole) (small : whole < 2 ^ 53)
    : ∃ (shift : Nat) (positive : 0 < whole * 2 ^ shift),
        ofNat Format.binary64 whole
          = .finite .positive (whole * 2 ^ shift) (-(shift : Int)) positive
        ∧ 2 ^ 52 ≤ whole * 2 ^ shift
        ∧ IsCanonical (whole * 2 ^ shift) (-(shift : Int)) := by
  have bits : whole.log2 < 53 := (Nat.log2_lt some.ne').mpr small
  obtain ⟨shift, far⟩ : ∃ shift, whole.log2 + shift = 52 := ⟨52 - whole.log2, by omega⟩
  have full : 2 ^ 52 ≤ whole * 2 ^ shift := by
    rw [← far, pow_add]
    exact Nat.mul_le_mul_right _ (Nat.log2_self_le some.ne')
  have short : whole * 2 ^ shift < 2 ^ 53 := by
    have upper : whole < 2 ^ (whole.log2 + 1) := Nat.lt_log2_self
    calc whole * 2 ^ shift < 2 ^ (whole.log2 + 1) * 2 ^ shift :=
          Nat.mul_lt_mul_of_pos_right upper (by positivity)
      _ = 2 ^ 53 := by rw [← pow_add]; congr 1; omega
  have canonical : IsCanonical (whole * 2 ^ shift) (-(shift : Int)) :=
    ⟨short, by omega, by omega, .inl full⟩
  have positive : 0 < whole * 2 ^ shift := by positivity
  have place : Format.binary64.targetExponent (totalExponent whole 0) = -(shift : Int) := by
    rw [targetExponent_eq]
    omega
  have located : Locates ((whole * 2 ^ shift : Nat) : ℚ) (whole * 2 ^ shift) .exact := rfl
  have rounded : roundWithAccuracy Format.binary64 .positive (whole * 2 ^ shift) (-(shift : Int))
      .exact = .finite .positive (whole * 2 ^ shift) (-(shift : Int)) positive :=
    (roundsTo_self _ _).roundWithAccuracy canonical.fillsBits positive located (.inr full) rfl
  have above : compare (whole : Int) 0 = .gt := Int.compare_eq_gt.mpr (by omega)
  have far : (0 - -(shift : Int)).toNat = shift := by omega
  refine ⟨shift, positive, ?_, full, canonical⟩
  simp only [UnpackedFloat.ofNat, UnpackedFloat.ofInt, UnpackedFloat.normalize, above,
    UnpackedFloat.round, Int.toNat_natCast, place, decreaseExponent, far]
  rw [← rounded, Nat.shiftLeft_eq, zero_sub]

theorem unpack_toFloat {whole : Nat} (some : 0 < whole) (small : whole < 2 ^ 53)
    : ∃ (shift : Nat) (positive : 0 < whole * 2 ^ shift),
        whole.toUInt64.toFloat.toModel.unpack
          = .finite .positive (whole * 2 ^ shift) (-(shift : Int)) positive
        ∧ 2 ^ 52 ≤ whole * 2 ^ shift := by
  obtain ⟨shift, positive, same, full, canonical⟩ := ofNat_eq some small
  refine ⟨shift, positive, ?_, full⟩
  have kept : whole.toUInt64.toNat = whole := UInt64.toNat_ofNat_of_lt' (small.trans (by decide))
  change (Float.Model.pack (ofNat Format.binary64 whole.toUInt64.toNat)).unpack = _
  rw [kept, same]
  exact unpack_pack canonical

/-- What rounds to a canonical form lies in the range of the doubles. -/
theorem RoundsTo.bounds (rounds : RoundsTo units mantissa exponent)
    (canonical : IsCanonical mantissa exponent) (positive : 0 < mantissa)
    : (2 : ℚ) ^ (-1075 : Int) ≤ units * 2 ^ exponent
      ∧ units * 2 ^ exponent < (2 : ℚ) ^ (1024 : Int) := by
  obtain ⟨short, least, most, -⟩ := canonical
  obtain ⟨below, above, -⟩ := rounds.nearest
  have some : (1 : ℚ) ≤ mantissa := by exact_mod_cast positive
  have short : (mantissa : ℚ) + 1 ≤ 2 ^ 53 := by exact_mod_cast short
  have unit : (0 : ℚ) < 2 ^ exponent := by positivity
  have lower : (2 : ℚ) ^ (-1074 : Int) ≤ 2 ^ exponent := zpow_le_zpow_right₀ (by norm_num) least
  have upper : (2 : ℚ) ^ exponent ≤ 2 ^ (971 : Int) := zpow_le_zpow_right₀ (by norm_num) most
  constructor
  · calc (2 : ℚ) ^ (-1075 : Int) = 2 ^ (-1 : Int) * 2 ^ (-1074 : Int) :=
          zpow_add₀ two_ne_zero (-1) (-1074)
      _ ≤ units * 2 ^ exponent :=
          mul_le_mul (by norm_num; linarith) lower (by positivity) (by linarith)
  · calc units * 2 ^ exponent < 2 ^ (53 : Int) * 2 ^ exponent :=
          mul_lt_mul_of_pos_right (by norm_num; linarith) unit
      _ ≤ 2 ^ (53 : Int) * 2 ^ (971 : Int) := mul_le_mul_of_nonneg_left upper (by positivity)
      _ = 2 ^ (1024 : Int) := (zpow_add₀ two_ne_zero 53 971).symm

/-- A decimal in the range of the doubles passes the checks that keep powers of ten small. -/
theorem power_bounds {digits : Nat} {power : Int}
    (lower : (2 : ℚ) ^ (-1075 : Int) ≤ digits * 10 ^ power)
    (upper : (digits * 10 ^ power : ℚ) < 2 ^ (1024 : Int))
    : digits ≠ 0 ∧ ¬ power > 2 ^ 11 ∧ ¬ power < -((2 ^ 11 : Int) + digits.log2) := by
  have some : digits ≠ 0 := by
    rintro rfl
    rw [Nat.cast_zero, zero_mul] at lower
    exact absurd lower (not_le.mpr (by positivity))
  refine ⟨some, ?_, ?_⟩
  · intro huge
    have one : (1 : ℚ) ≤ digits := by exact_mod_cast Nat.pos_of_ne_zero some
    refine absurd upper (not_lt.mpr ?_)
    calc (2 : ℚ) ^ (1024 : Int) ≤ 10 ^ (1024 : Int) :=
          zpow_le_zpow_left₀ (by norm_num) (by norm_num) (by norm_num)
      _ ≤ 10 ^ power := zpow_le_zpow_right₀ (by norm_num) (by omega)
      _ ≤ digits * 10 ^ power := le_mul_of_one_le_left (by positivity) one
  · intro tiny
    obtain ⟨places, rfl⟩ : ∃ places : Nat, power = -(places : Int) := ⟨power.natAbs, by omega⟩
    have short : (digits : ℚ) ≤ 2 ^ ((digits.log2 : Int) + 1) := by
      exact_mod_cast Nat.lt_log2_self.le
    have power : (10 : ℚ) ^ (-(places : Int)) ≤ 2 ^ (-(places : Int)) := by
      rw [zpow_neg, zpow_neg, zpow_natCast, zpow_natCast]
      exact inv_anti₀ (by positivity) (pow_le_pow_left₀ (by norm_num) (by norm_num) places)
    refine absurd lower (not_le.mpr ?_)
    calc (digits * 10 ^ (-(places : Int)) : ℚ)
        ≤ 2 ^ ((digits.log2 : Int) + 1) * 2 ^ (-(places : Int)) :=
          mul_le_mul short power (by positivity) (by positivity)
      _ = 2 ^ ((digits.log2 : Int) + 1 + -(places : Int)) := (zpow_add₀ two_ne_zero _ _).symm
      _ < 2 ^ (-1075 : Int) := zpow_lt_zpow_right₀ (by norm_num) (by omega)

/-- A decimal that rounds to a canonical form is read as it. -/
theorem RoundsTo.ofScientific (rounds : RoundsTo units mantissa exponent)
    (canonical : IsCanonical mantissa exponent) {digits : Nat} {power : Int}
    (same : (digits : ℚ) * 10 ^ power = units * 2 ^ exponent)
    : ofScientific Format.binary64 digits power = .finite .positive mantissa exponent positive := by
  obtain ⟨lower, upper⟩ := rounds.bounds canonical positive
  rw [← same] at lower upper
  obtain ⟨some, notHuge, notTiny⟩ := power_bounds lower upper
  unfold UnpackedFloat.ofScientific
  rw [dif_neg some, if_neg notHuge, if_neg notTiny]
  split
  next whole =>
    obtain ⟨places, rfl⟩ := Int.eq_ofNat_of_zero_le whole
    have bits : Format.binary64.mantissaBits = 53 := rfl
    refine rounds.mul canonical.fillsBits ?_ ?_
    · rw [Nat.shiftLeft_eq, bits]
      omega
    · rw [← same, Nat.shiftLeft_eq, bits]
      push_cast
      rw [Int.toNat_natCast, zpow_natCast]
      norm_num
      ring
  next fraction =>
    obtain ⟨places, rfl⟩ : ∃ places : Nat, power = -(places : Int) := ⟨power.natAbs, by omega⟩
    refine rounds.div canonical ?_
    rw [← same]
    norm_num [div_eq_mul_inv]

/-- A size that is whole in units of some place. -/
theorem mul_two_zpow_eq {size whole : Nat} {place : Int}
    (same : size * 2 ^ place.toNat = whole * 2 ^ (-place).toNat)
    : (size : ℚ) * 2 ^ place = whole := by
  obtain ⟨distance, rfl | rfl⟩ := place.eq_nat_or_neg
  · rw [Int.toNat_natCast, Int.toNat_neg_natCast, pow_zero, mul_one] at same
    rw [zpow_natCast]
    exact_mod_cast same
  · rw [Int.toNat_neg_natCast, pow_zero, mul_one, neg_neg, Int.toNat_natCast] at same
    rw [same, zpow_neg, zpow_natCast]
    push_cast
    field_simp

variable {x : Float}

/-- A decimal that rounds to a double is read as it, by way of exact doubles where there are any. -/
theorem ofScientific_eq {digits places : Nat} {negative : Bool}
    (unpacked : x.toModel.unpack = .finite .positive mantissa exponent positive)
    (rounds : RoundsTo units mantissa exponent)
    (same : (digits : ℚ) * 10 ^ (if negative then Int.negOfNat places else Int.ofNat places)
      = units * 2 ^ exponent)
    : Float.ofScientific digits negative places = x := by
  have canonical : IsCanonical mantissa exponent := isCanonical_unpack unpacked
  rw [← pack_unpack_float x, unpacked]
  unfold Float.ofScientific
  split
  next small =>
    obtain ⟨lower, upper⟩ := rounds.bounds canonical positive
    rw [← same] at lower upper
    obtain ⟨some, -, -⟩ := power_bounds lower upper
    -- the digits and the power of ten are exact doubles, so that only the result is rounded
    obtain ⟨shift, whole, number, full⟩ := unpack_toFloat (Nat.pos_of_ne_zero some) small.1
    obtain ⟨tens, place, tensPositive, power, exact⟩ := unpack_powerOfTen (lt_size_table small.2)
    have value : (tens : ℚ) * 2 ^ place = 10 ^ places := by
      exact_mod_cast mul_two_zpow_eq exact
    dsimp only
    split
    next below =>
      rw [if_pos below] at same
      change Float.ofModel (.pack (UnpackedFloat.div _ digits.toUInt64.toFloat.toModel.unpack _))
        = _
      rw [number, power, rounds.div canonical]
      rw [← same, Int.negOfNat_eq, zpow_neg, Int.ofNat_eq_natCast, zpow_natCast, ← value,
        zpow_sub₀ two_ne_zero, zpow_neg, zpow_natCast]
      push_cast
      field_simp
    next above =>
      rw [if_neg above] at same
      change Float.ofModel (.pack (UnpackedFloat.mul _ digits.toUInt64.toFloat.toModel.unpack _))
        = _
      rw [number, power, rounds.mul canonical.fillsBits full]
      rw [← same, Int.ofNat_eq_natCast, zpow_natCast, ← value, zpow_add₀ two_ne_zero, zpow_neg,
        zpow_natCast]
      push_cast
      field_simp
  next =>
    exact congrArg (fun f => Float.ofModel (.pack f)) (rounds.ofScientific canonical same)

/-- The checks on the size of a decimal leave those that round to a double. -/
theorem nearestDouble_eq {digits length : Nat} {power : Int}
    (unpacked : x.toModel.unpack = .finite .positive mantissa exponent positive)
    (rounds : RoundsTo units mantissa exponent)
    (same : (digits : ℚ) * 10 ^ power = units * 2 ^ exponent)
    (least : -400 ≤ power + length) (most : power ≤ 400)
    : nearestDouble digits length power = x := by
  have canonical : IsCanonical mantissa exponent := isCanonical_unpack unpacked
  obtain ⟨lower, upper⟩ := rounds.bounds canonical positive
  rw [← same] at lower upper
  obtain ⟨some, -, -⟩ := power_bounds lower upper
  -- far below the least double, nothing rounds to a double with digits
  have inside : ¬ (digits = 0 || power + length < -400) = true := by
    simp only [Bool.or_eq_true, decide_eq_true_eq]
    omega
  unfold nearestDouble
  rw [if_neg inside, if_neg (not_lt.mpr most)]
  split
  next below =>
    refine ofScientific_eq unpacked rounds ?_
    have back : Int.negOfNat power.natAbs = power := by
      rw [Int.negOfNat_eq, Int.ofNat_eq_natCast]
      omega
    rw [if_pos rfl, back, same]
  next above =>
    refine ofScientific_eq unpacked rounds ?_
    have back : Int.ofNat power.natAbs = power := Int.natAbs_of_nonneg (not_lt.mp above)
    rw [if_neg (by decide), back, same]

end

end Wavetable.Number
