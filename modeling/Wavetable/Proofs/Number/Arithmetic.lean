import Wavetable.Proofs.Number.Wholes

/-!
Exact arithmetic. Where the exact product or difference of two doubles is a double, rounding leaves
it as it is.
-/

namespace Wavetable.Number

open Float.Model (Format UnpackedFloat totalExponent)
open Float.Model.UnpackedFloat

/-- A double is finite and stands for exactly this number. -/
structure StandsFor (x : Float) (number : ℚ) : Prop where
  finite : x.isFinite = true
  same : value x = number

/-- There is a double that stands for the number. -/
def IsDouble (number : ℚ) : Prop :=
  ∃ x, StandsFor x number

/-- The forms that finite doubles have, with the numbers that they stand for. -/
inductive IsForm : UnpackedFloat → ℚ → Prop
  | zero (sign : Sign) : IsForm (.zero sign) 0
  | finite {sign mantissa exponent positive} (canonical : IsCanonical mantissa exponent)
    : IsForm (.finite sign mantissa exponent positive) (signed sign (mantissa * 2 ^ exponent))

section
variable {x : Float} {f : UnpackedFloat} {number : ℚ}

theorem StandsFor.isForm (stands : StandsFor x number) : IsForm x.toModel.unpack number := by
  obtain ⟨finite, rfl⟩ := stands
  have size := isSize_unpack (isNaN_of_isFinite finite)
  change x.toModel.unpack.isFinite = true at finite
  unfold value
  generalize x.toModel.unpack = f at size finite ⊢
  cases size with
  | infinity sign => contradiction
  | zero sign => exact .zero sign
  | finite canonical => exact .finite canonical

theorem IsForm.isSize (form : IsForm f number) : IsSize f := by
  cases form with
  | zero sign => exact .zero sign
  | finite canonical => exact .finite canonical

theorem IsForm.standsFor (form : IsForm f number) (unpacked : x.toModel.unpack = f)
    : StandsFor x number := by
  have finite : x.isFinite = f.isFinite := congrArg UnpackedFloat.isFinite unpacked
  have same := value_eq unpacked
  cases form with
  | zero sign => exact ⟨finite, same⟩
  | finite canonical => exact ⟨finite, same⟩

end

-----------------------------------------------------------------------------------------
-- Rounding what is exact
-----------------------------------------------------------------------------------------

/-- Bits that are appended at a finer place keep the size. -/
theorem size_shiftLeft (mantissa shift : Nat) (exponent : Int)
    : ((mantissa <<< shift : Nat) * 2 ^ (exponent - shift) : ℚ) = mantissa * 2 ^ exponent := by
  rw [Nat.shiftLeft_eq, zpow_sub₀ two_ne_zero, zpow_natCast]
  push_cast
  field_simp

section
variable {sign : Sign} {mantissa : Nat} {exponent : Int}

/-- What a double stands for is rounded to it, if enough of its bits are there. -/
theorem IsDouble.roundWithAccuracy (double : IsDouble (signed sign (mantissa * 2 ^ exponent)))
    (some : 0 < mantissa) (enough : exponent ≤ -1074 ∨ 2 ^ 52 ≤ mantissa)
    : IsForm (roundWithAccuracy Format.binary64 sign mantissa exponent .exact)
        (signed sign (mantissa * 2 ^ exponent)) := by
  obtain ⟨x, stands⟩ := double
  have form := stands.isForm
  generalize x.toModel.unpack = f at form
  have size := size_pos exponent some
  generalize counted : signed sign (mantissa * 2 ^ exponent) = number at form ⊢
  cases form with
  | zero sign' => cases sign <;> simp only [signed] at counted <;> linarith
  | @finite sign' mantissa' exponent' positive canonical =>
      have size' := size_pos exponent' positive
      -- both sizes are positive, so the signs agree
      obtain ⟨rfl, same⟩
          : sign = sign' ∧ (mantissa * 2 ^ exponent : ℚ) = mantissa' * 2 ^ exponent' := by
        cases sign <;> cases sign' <;> simp only [signed] at counted
        · exact ⟨rfl, neg_inj.mp counted⟩
        · linarith
        · linarith
        · exact ⟨rfl, counted⟩
      have located : Locates mantissa mantissa .exact := rfl
      rw [(roundsTo_self _ _).roundWithAccuracy canonical.fillsBits positive located enough same]
      exact .finite canonical

/-- Rounding first appends the bits that are missing. -/
theorem exists_round_eq (sign : Sign) (exponent : Int) (some : 0 < mantissa)
    : ∃ shift : Nat,
        UnpackedFloat.round Format.binary64 sign mantissa exponent
          = roundWithAccuracy Format.binary64 sign (mantissa <<< shift) (exponent - shift) .exact
        ∧ 0 < mantissa <<< shift
        ∧ (exponent - shift ≤ -1074 ∨ 2 ^ 52 ≤ mantissa <<< shift) := by
  unfold UnpackedFloat.round decreaseExponent
  simp only [targetExponent_eq]
  generalize far : (exponent - max (mantissa.log2 + exponent - 52) (-1074)).toNat = shift
  refine ⟨shift, rfl, ?_, ?_⟩
  · rw [Nat.shiftLeft_eq]
    positivity
  · refine or_iff_not_imp_left.mpr fun coarse => ?_
    have bits : 52 ≤ mantissa.log2 + shift := by omega
    calc 2 ^ 52 ≤ 2 ^ (mantissa.log2 + shift) := Nat.pow_le_pow_right (by decide) bits
      _ = 2 ^ mantissa.log2 * 2 ^ shift := pow_add ..
      _ ≤ mantissa * 2 ^ shift := Nat.mul_le_mul_right _ (Nat.log2_self_le some.ne')
      _ = mantissa <<< shift := (Nat.shiftLeft_eq ..).symm

theorem IsDouble.round (double : IsDouble (signed sign (mantissa * 2 ^ exponent)))
    (some : 0 < mantissa)
    : IsForm (UnpackedFloat.round Format.binary64 sign mantissa exponent)
        (signed sign (mantissa * 2 ^ exponent)) := by
  obtain ⟨shift, rounded, positive, enough⟩ := exists_round_eq sign exponent some
  rw [← size_shiftLeft mantissa shift] at double ⊢
  rw [rounded]
  exact double.roundWithAccuracy positive enough

/-- A whole number of units with its sign is rounded by its size. -/
theorem IsDouble.normalize {units : Int} (double : IsDouble (units * 2 ^ exponent))
    : IsForm (UnpackedFloat.normalize Format.binary64 units exponent .positive)
        (units * 2 ^ exponent) := by
  unfold UnpackedFloat.normalize
  rcases lt_trichotomy units 0 with below | rfl | above
  · obtain ⟨size, rfl⟩ : ∃ size : Nat, units = -(size : Int) := ⟨units.natAbs, by omega⟩
    have kept : (- -(size : Int)).toNat = size := by omega
    have same : ((-(size : Int) : Int) : ℚ) * 2 ^ exponent
        = signed .negative (size * 2 ^ exponent) := by
      simp [signed]
    rw [same] at double ⊢
    simp only [compare_lt_iff_lt.mpr below, kept]
    exact double.round (by omega)
  · simpa [compare_eq_iff_eq.mpr rfl] using IsForm.zero .positive
  · obtain ⟨size, rfl⟩ : ∃ size : Nat, units = size := ⟨units.toNat, by omega⟩
    have same : ((size : Int) : ℚ) * 2 ^ exponent = signed .positive (size * 2 ^ exponent) := by
      simp [signed]
    rw [same] at double ⊢
    simp only [compare_gt_iff_gt.mpr above, Int.toNat_natCast]
    exact double.round (by omega)

end

-----------------------------------------------------------------------------------------
-- Operations
-----------------------------------------------------------------------------------------

/-- A mantissa and its sign, in units of a place that is not coarser than its own. -/
theorem signed_aligned (sign : Sign) (mantissa : Nat) {exponent place : Int}
    (finer : place ≤ exponent)
    : signed sign (mantissa * 2 ^ exponent)
      = (sign.apply ((mantissa <<< (exponent - place).toNat : Nat) : Int) : Int) * 2 ^ place := by
  obtain ⟨shift, rfl⟩ : ∃ shift : Nat, place = exponent - shift :=
    ⟨(exponent - place).toNat, by omega⟩
  have far : (exponent - (exponent - shift)).toNat = shift := by omega
  rw [far, ← size_shiftLeft mantissa shift exponent]
  generalize mantissa <<< shift = aligned
  cases sign <;> simp [signed, Sign.apply]

section
variable {x y : Float} {f g : UnpackedFloat} {left right : ℚ}

theorem IsForm.sub (first : IsForm f left) (second : IsForm g right)
    (double : IsDouble (left - right))
    : IsForm (sub Format.binary64 f g) (left - right) := by
  cases first with
  | zero sign =>
      cases second with
      | zero sign' => cases sign <;> cases sign' <;> exact (sub_self (0 : ℚ)).symm ▸ .zero _
      | finite canonical =>
          rw [zero_sub, ← signed_neg]
          exact .finite canonical
  | finite canonical =>
      cases second with
      | zero sign' =>
          rw [sub_zero]
          exact .finite canonical
      | finite canonical' =>
          rw [signed_aligned _ _ (min_le_left _ _), signed_aligned _ _ (min_le_right _ _),
            ← sub_mul, ← Int.cast_sub] at double ⊢
          exact double.normalize

theorem signed_mul (sign sign' : Sign) (size size' : ℚ)
    : signed sign size * signed sign' size' = signed (sign * sign') (size * size') := by
  cases sign <;> cases sign'
  · exact neg_mul_neg ..
  · exact neg_mul ..
  · exact mul_neg ..
  · rfl

/-- The product of two mantissas has enough bits unless its exponent is too small to tell. -/
theorem IsForm.mul (first : IsForm f left) (second : IsForm g right)
    (double : IsDouble (left * right))
    : IsForm (mul Format.binary64 f g) (left * right) := by
  cases first with
  | zero sign =>
      rw [zero_mul]
      cases second <;> exact .zero _
  | @finite sign mantissa exponent some canonical =>
      cases second with
      | zero sign' =>
          rw [mul_zero]
          exact .zero _
      | @finite sign' mantissa' exponent' some' canonical' =>
          have size : (mantissa * 2 ^ exponent : ℚ) * (mantissa' * 2 ^ exponent')
              = (mantissa * mantissa' : Nat) * 2 ^ (exponent + exponent') := by
            rw [zpow_add₀ two_ne_zero]
            push_cast
            ring
          have enough : exponent + exponent' ≤ -1074 ∨ 2 ^ 52 ≤ mantissa * mantissa' := by
            obtain ⟨-, -, most, full | least⟩ := canonical
            · exact .inr (full.trans (Nat.le_mul_of_pos_right _ some'))
            obtain ⟨-, -, -, full | least'⟩ := canonical'
            · exact .inr (full.trans (Nat.le_mul_of_pos_left _ some))
            · exact .inl (by omega)
          rw [signed_mul, size] at double ⊢
          exact double.roundWithAccuracy (Nat.mul_pos some some') enough

/-- A difference that is a double is exact. -/
theorem StandsFor.sub (first : StandsFor x left) (second : StandsFor y right)
    (double : IsDouble (left - right))
    : StandsFor (x - y) (left - right) := by
  have form := first.isForm.sub second.isForm double
  exact form.standsFor form.isSize.unpack_pack

/-- A product that is a double is exact. -/
theorem StandsFor.mul (first : StandsFor x left) (second : StandsFor y right)
    (double : IsDouble (left * right))
    : StandsFor (x * y) (left * right) := by
  have form := first.isForm.mul second.isForm double
  exact form.standsFor form.isSize.unpack_pack

end

-----------------------------------------------------------------------------------------
-- Doubles
-----------------------------------------------------------------------------------------

theorem IsForm.isDouble {f : UnpackedFloat} {number : ℚ} (form : IsForm f number)
    : IsDouble number :=
  ⟨.ofModel (.pack f), form.standsFor form.isSize.unpack_pack⟩

section
variable {unit : Int} (least : -1074 ≤ unit) (most : unit ≤ 971)
include least most

/-- A mantissa of at most 53 bits is filled up, as far as the least place admits. -/
theorem isDouble_signed (sign : Sign) {size : Nat} (short : size < 2 ^ 53)
    : IsDouble (signed sign (size * 2 ^ unit)) := by
  rcases Nat.eq_zero_or_pos size with rfl | some
  · have none : signed sign ((0 : Nat) * 2 ^ unit) = 0 := by
      cases sign <;> simp [signed]
    exact none ▸ (IsForm.zero .positive).isDouble
  have bits : size.log2 ≤ 52 := Nat.le_of_lt_succ ((Nat.log2_lt some.ne').mpr short)
  obtain ⟨shift, within, filled⟩
      : ∃ shift : Nat, size.log2 + shift ≤ 52 ∧ (size.log2 + shift = 52 ∨ unit - shift = -1074)
        ∧ -1074 ≤ unit - shift := by
    refine ⟨min (52 - size.log2) (unit + 1074).toNat, ?_, ?_, ?_⟩ <;> omega
  have positive : 0 < size <<< shift := by
    rw [Nat.shiftLeft_eq]
    positivity
  have canonical : IsCanonical (size <<< shift) (unit - shift) := by
    refine ⟨?_, filled.2, by omega, filled.1.imp_left fun full => ?_⟩
    · calc size <<< shift = size * 2 ^ shift := Nat.shiftLeft_eq ..
        _ < 2 ^ (size.log2 + 1) * 2 ^ shift :=
            Nat.mul_lt_mul_of_pos_right Nat.lt_log2_self (by positivity)
        _ = 2 ^ (size.log2 + shift + 1) := by rw [← pow_add]; congr 1; omega
        _ ≤ 2 ^ 53 := Nat.pow_le_pow_right (by decide) (by omega)
    · calc 2 ^ 52 = 2 ^ size.log2 * 2 ^ shift := by rw [← pow_add, full]
        _ ≤ size * 2 ^ shift := Nat.mul_le_mul_right _ (Nat.log2_self_le some.ne')
        _ = size <<< shift := (Nat.shiftLeft_eq ..).symm
  have form : IsForm (.finite sign (size <<< shift) (unit - shift) positive)
      (signed sign ((size <<< shift : Nat) * 2 ^ (unit - shift))) := .finite canonical
  rw [size_shiftLeft] at form
  exact form.isDouble

/-- A whole number of at most 53 bits is a double in units of each place that doubles have. -/
theorem isDouble_units {units : Int} (short : units.natAbs < 2 ^ 53)
    : IsDouble (units * 2 ^ unit) := by
  cases units with
  | ofNat size => exact_mod_cast isDouble_signed least most .positive short
  | negSucc size =>
      have double := isDouble_signed least most .negative short
      rw [Int.cast_negSucc, neg_mul]
      exact double

end

theorem isDouble_fraction {units : Int} (short : units.natAbs < 2 ^ 53) {places : Nat}
    (few : places ≤ 1074)
    : IsDouble (units / 2 ^ places) := by
  have double : IsDouble (units * 2 ^ (-(places : Int))) :=
    isDouble_units (by omega) (by omega) short
  rwa [zpow_neg, zpow_natCast, ← div_eq_mul_inv] at double

theorem standsFor_ofNat {whole : Nat} (short : whole < 2 ^ 53)
    : StandsFor (Float.ofNat whole) whole := by
  rcases Nat.eq_zero_or_pos whole with rfl | some
  · exact_mod_cast (IsForm.zero .positive).standsFor unpack_ofInt_zero
  · obtain ⟨shift, positive, unpacked, -, -⟩ := unpack_ofNat some short
    exact ⟨congrArg UnpackedFloat.isFinite unpacked, value_ofNat_of_lt some short⟩

/-- A form is that of a power of two. -/
def isPowerOfTwo (exponent : Int) : UnpackedFloat → Bool
  | .finite .positive mantissa place _ => mantissa == 2 ^ 52 && place == exponent - 52
  | _ => false

theorem isPowerOfTwo_table
    : ∀ place : Fin 254,
        isPowerOfTwo (place - 149) (powerOfTwo (place - 149)).toModel.unpack = true := by
  decide +kernel

/-- The powers of two in the range of single precision are exact. -/
theorem unpack_powerOfTwo {exponent : Int} (least : -149 ≤ exponent) (most : exponent ≤ 104)
    : ∃ positive,
        (powerOfTwo exponent).toModel.unpack
          = .finite .positive (2 ^ 52) (exponent - 52) positive := by
  have exact := isPowerOfTwo_table ⟨(exponent + 149).toNat, by omega⟩
  have same : (((exponent + 149).toNat : Nat) : Int) - 149 = exponent := by omega
  simp only [same] at exact
  generalize (powerOfTwo exponent).toModel.unpack = f at exact ⊢
  match f with
  | .finite .positive mantissa place positive =>
      simp only [isPowerOfTwo, Bool.and_eq_true, beq_iff_eq] at exact
      obtain ⟨rfl, rfl⟩ := exact
      exact ⟨positive, rfl⟩

theorem standsFor_powerOfTwo {exponent : Int} (least : -149 ≤ exponent) (most : exponent ≤ 104)
    : StandsFor (powerOfTwo exponent) (2 ^ exponent) := by
  obtain ⟨positive, unpacked⟩ := unpack_powerOfTwo least most
  refine ⟨congrArg UnpackedFloat.isFinite unpacked, (value_eq unpacked).trans ?_⟩
  simp only [unpackedValue, signed]
  rw [zpow_sub₀ two_ne_zero]
  norm_num
  ring

theorem standsFor_one : StandsFor 1.0 1 := by
  have same : (1.0 : Float) = Float.ofNat 1 := by decide +kernel
  have small : 1 < 2 ^ 53 := by norm_num
  rw [same]
  exact_mod_cast standsFor_ofNat small

theorem standsFor_two : StandsFor 2.0 2 := by
  have same : (2.0 : Float) = Float.ofNat 2 := by decide +kernel
  have small : 2 < 2 ^ 53 := by norm_num
  rw [same]
  exact_mod_cast standsFor_ofNat small

end Wavetable.Number
