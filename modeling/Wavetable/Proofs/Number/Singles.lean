import Wavetable.Proofs.Number.Arithmetic

/-!
Single-precision numbers. A double is rounded to one by its size, and sizes behind the largest one
become infinite; rounding keeps the order of the doubles.
-/

namespace Wavetable.Number

open Float.Model (Format UnpackedFloat)
open Float.Model.UnpackedFloat

/-- Sizes behind the largest single-precision number are infinite. -/
def singleSize (size : ℚ) : ℚ :=
  if size < 2 ^ (128 : Int) then size else beyond

theorem singleSize_zero : singleSize 0 = 0 :=
  if_pos (by positivity)

theorem monotone_singleSize : Monotone singleSize := by
  intro size size' below
  have far : (2 : ℚ) ^ (128 : Int) ≤ beyond := by
    rw [beyond]
    exact zpow_le_zpow_right₀ (by norm_num) (by norm_num)
  unfold singleSize
  split <;> split <;> linarith

theorem value_withSign {x : Float} (number : x.isNaN = false) (sign : Sign)
    : value (withSign (sign == .negative) x) = signed sign (value x)
      ∧ (withSign (sign == .negative) x).isNaN = false := by
  cases sign
  · exact ⟨value_neg number, isNaN_neg number⟩
  · exact ⟨rfl, number⟩

theorem isNaN_of_unpack {x : Float} {f : UnpackedFloat} (unpacked : x.toModel.unpack = f)
    (number : f.isNaN = false)
    : x.isNaN = false :=
  (congrArg UnpackedFloat.isNaN unpacked).trans number

/-- A number of units of single precision. -/
def singleOf (units : Nat) (unit : Int) : Float :=
  if unit ≤ 104 && units < 2 ^ (128 - unit).toNat then Float.ofNat units * powerOfTwo unit
  else infinity

/-- The rounded size gets its sign back. -/
theorem toSingle_eq {x : Float} {negative : Bool} {mantissa : Nat} {exponent : Int}
    (finite : Double.ofFloat x = .finite negative mantissa exponent)
    : let unit := singleUnit (exponent + mantissa.log2)
      toSingle x = withSign negative (singleOf (unitsNearestEven mantissa exponent unit) unit) := by
  simp only [toSingle, finite, singleOf]
  split <;> rfl

section
variable {size : ℚ} {units : Nat} {unit : Int}

/-- The units that a size is rounded to are held exactly. -/
theorem value_singleOf_inside (rounds : RoundsIn 23 (-149) size units unit) (most : unit ≤ 104)
    (small : units < 2 ^ (128 - unit).toNat)
    : value (singleOf units unit) = singleSize (units * 2 ^ unit)
      ∧ (singleOf units unit).isNaN = false := by
  have same : singleOf units unit = Float.ofNat units * powerOfTwo unit :=
    if_pos (by simp [most, small])
  have small : (units : ℚ) < 2 ^ (128 - unit : Int) := by
    have exponent : (128 - unit : Int) = ((128 - unit).toNat : Int) := by omega
    rw [exponent, zpow_natCast]
    exact_mod_cast small
  have small : (units * 2 ^ unit : ℚ) < 2 ^ (128 : Int) := by
    calc (units * 2 ^ unit : ℚ) < 2 ^ (128 - unit : Int) * 2 ^ unit :=
          mul_lt_mul_of_pos_right small (by positivity)
      _ = 2 ^ (128 : Int) := by rw [← zpow_add₀ two_ne_zero, sub_add_cancel]
  rw [same, singleSize, if_pos small]
  have short : units < 2 ^ 53 := rounds.units_le.trans_lt (by decide)
  have least := rounds.inside
  have double : IsDouble (units * 2 ^ unit) :=
    isDouble_signed (by omega) (by omega) .positive short
  have product := (standsFor_ofNat short).mul (standsFor_powerOfTwo least most) double
  exact ⟨product.same, isNaN_of_isFinite product.finite⟩

/-- What has no place among the single-precision numbers is infinite. -/
theorem value_singleOf_outside (rounds : RoundsIn 23 (-149) size units unit)
    (outside : ¬ (unit ≤ 104 ∧ units < 2 ^ (128 - unit).toNat))
    : value (singleOf units unit) = singleSize (units * 2 ^ unit)
      ∧ (singleOf units unit).isNaN = false := by
  have same : singleOf units unit = infinity := if_neg (by simpa using outside)
  have enough : ∃ bits : Nat, 2 ^ bits ≤ units ∧ 128 ≤ bits + unit := by
    by_cases most : unit ≤ 104
    · exact ⟨(128 - unit).toNat, Nat.le_of_not_lt fun small => outside ⟨most, small⟩, by omega⟩
    · exact ⟨23, rounds.le_units (by omega), by omega⟩
  obtain ⟨bits, some, far⟩ := enough
  have some : (2 : ℚ) ^ (bits : Int) ≤ units := by exact_mod_cast some
  have large : ¬ (units * 2 ^ unit : ℚ) < 2 ^ (128 : Int) := by
    refine not_lt.mpr ?_
    calc (2 : ℚ) ^ (128 : Int) ≤ 2 ^ (bits + unit) := zpow_le_zpow_right₀ (by norm_num) far
      _ = 2 ^ (bits : Int) * 2 ^ unit := zpow_add₀ two_ne_zero _ _
      _ ≤ units * 2 ^ unit := mul_le_mul_of_nonneg_right some (by positivity)
  rw [same, singleSize, if_neg large, value_eq unpack_infinity]
  exact ⟨rfl, isNaN_of_unpack unpack_infinity rfl⟩

theorem value_singleOf (rounds : RoundsIn 23 (-149) size units unit)
    : value (singleOf units unit) = singleSize (units * 2 ^ unit)
      ∧ (singleOf units unit).isNaN = false := by
  by_cases inside : unit ≤ 104 ∧ units < 2 ^ (128 - unit).toNat
  · exact value_singleOf_inside rounds inside.1 inside.2
  · exact value_singleOf_outside rounds inside

end

/-- A finite double is rounded to single precision by its size. -/
theorem roundsSigned_toSingle {x : Float} (finite : x.isFinite = true)
    : RoundsSigned 23 (-149) singleSize (value x) (value (toSingle x))
      ∧ (toSingle x).isNaN = false := by
  have held : ∃ sign mantissa exponent units unit,
      Double.ofFloat x = .finite (sign == .negative) mantissa exponent
      ∧ value x = signed sign (mantissa * 2 ^ exponent)
      ∧ RoundsIn 23 (-149) (mantissa * 2 ^ exponent) units unit
      ∧ unit = singleUnit (exponent + mantissa.log2)
      ∧ units = unitsNearestEven mantissa exponent unit := by
    change x.toModel.unpack.isFinite = true at finite
    unfold value Double.ofFloat
    cases unpacked : x.toModel.unpack with
    | notANumber | infinity sign =>
        rw [unpacked] at finite
        contradiction
    | zero sign =>
        have none : unitsNearestEven 0 Double.minExponent (-149) = 0 := by
          simp [unitsNearestEven, divNearestEven]
        refine ⟨sign, 0, Double.minExponent, 0, -149, rfl, ?_, ?_, rfl, none.symm⟩
        · cases sign <;> simp [unpackedValue, signed]
        · simpa using roundsIn_zero 23 (-149)
    | finite sign mantissa exponent positive =>
        exact ⟨sign, mantissa, exponent, _, _, rfl, rfl,
          roundsIn_unitsNearestEven positive 23 (-149) exponent, rfl, rfl⟩
  obtain ⟨sign, mantissa, exponent, units, unit, parts, same, rounds, rfl, rfl⟩ := held
  obtain ⟨rounded, number⟩ := value_singleOf rounds
  obtain ⟨rounded', number'⟩ := value_withSign number sign
  rw [toSingle_eq parts]
  refine ⟨⟨sign, _, _, _, same, by positivity, rounds, ?_⟩, number'⟩
  rw [rounded', rounded]

/-- Rounding to single precision keeps the order of finite doubles. -/
theorem toSingle_mono {x y : Float} (finite : x.isFinite = true) (finite' : y.isFinite = true)
    (below : x ≤ y)
    : toSingle x ≤ toSingle y := by
  obtain ⟨rounds, number⟩ := roundsSigned_toSingle finite
  obtain ⟨rounds', number'⟩ := roundsSigned_toSingle finite'
  rw [le_iff_value (isNaN_of_isFinite finite) (isNaN_of_isFinite finite')] at below
  rw [le_iff_value number number']
  exact rounds.mono monotone_singleSize singleSize_zero rounds' below

end Wavetable.Number
