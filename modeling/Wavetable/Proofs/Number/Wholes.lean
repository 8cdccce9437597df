import Wavetable.Proofs.Number.Overflow
import Wavetable.Proofs.Number.Rounding
import Wavetable.Proofs.Number.Scientific

/-!
Whole numbers as doubles. A whole number is rounded to the nearest double, and one that is rounded
to a finite double keeps its place among all others.
-/

namespace Wavetable.Number

open Float.Model (Format UnpackedFloat totalExponent)
open Float.Model.UnpackedFloat

/-- The size of a double is a multiple of its last place. -/
theorem IsCanonical.roundsIn {mantissa : Nat} {exponent : Int}
    (canonical : IsCanonical mantissa exponent)
    : RoundsIn 52 (-1074) (mantissa * 2 ^ exponent) mantissa exponent := by
  obtain ⟨short, least, -, normal⟩ := canonical
  have place : (0 : ℚ) < 2 ^ exponent := by positivity
  have short : (mantissa : ℚ) < 2 ^ (53 : Int) := by exact_mod_cast short
  refine ⟨?_, least, normal.imp_left fun full => ?_, ?_⟩
  · rw [mul_div_cancel_right₀ _ place.ne']
    exact isNearest_self mantissa
  · have full : (2 : ℚ) ^ (52 : Int) ≤ mantissa := by exact_mod_cast full
    rw [zpow_add₀ two_ne_zero]
    exact mul_le_mul_of_nonneg_right full place.le
  · calc (mantissa * 2 ^ exponent : ℚ) < 2 ^ (53 : Int) * 2 ^ exponent :=
          mul_lt_mul_of_pos_right short place
      _ = 2 ^ (((52 : Nat) : Int) + exponent + 1) := by
          rw [← zpow_add₀ two_ne_zero]
          congr 1
          push_cast
          ring

/-- What is rounded to units of 53 bits rounds to a form whose mantissa fills its bits. A mantissa
that has grown to the next power of two is one of the next place.
-/
theorem RoundsIn.exists_roundsTo {size : ℚ} {units : Nat} {unit : Int}
    (rounds : RoundsIn 52 (-1074) size units unit) (some : 0 < units)
    : ∃ mantissa place,
        FillsBits mantissa place
        ∧ 0 < mantissa
        ∧ RoundsTo (size / 2 ^ place) mantissa place
        ∧ (mantissa * 2 ^ place : ℚ) = units * 2 ^ unit := by
  have most := rounds.units_le
  have unitPlace : (0 : ℚ) < 2 ^ unit := by positivity
  rcases Nat.lt_or_ge units (2 ^ 53) with short | grown
  · refine ⟨units, unit, ⟨short, rounds.inside, ?_⟩, some, ⟨rounds.nearest, ?_⟩, rfl⟩
    · by_cases coarse : unit = -1074
      · exact .inr coarse
      · exact .inl (rounds.le_units coarse)
    · intro power coarse
      -- the size is not below the power of two
      have full := rounds.full.resolve_right (by omega)
      rw [zpow_add₀ two_ne_zero, ← le_div_iff₀ unitPlace] at full
      rw [power]
      push_cast at full ⊢
      linarith
  · obtain rfl : units = 2 ^ 53 := Nat.le_antisymm most grown
    have lower := rounds.nearest.1
    have upper := rounds.short
    rw [add_right_comm, zpow_add₀ two_ne_zero, ← div_lt_iff₀ unitPlace] at upper
    have half : size / 2 ^ (unit + 1) = size / 2 ^ unit / 2 := by
      rw [zpow_add_one₀ two_ne_zero, div_div]
    push_cast at lower upper
    have below : ((2 ^ 52 : Nat) : ℚ) - 1 / 4 ≤ size / 2 ^ (unit + 1) := by
      rw [half]
      push_cast
      linarith
    refine ⟨2 ^ 52, unit + 1, ⟨by decide, by have := rounds.inside; omega, .inl le_rfl⟩, by decide,
      ⟨⟨?_, ?_, fun odd => absurd odd (by decide)⟩, fun _ _ => below⟩, ?_⟩
    · linarith
    · rw [half]
      push_cast
      linarith
    · rw [zpow_add_one₀ two_ne_zero]
      push_cast
      ring

/-- A form whose mantissa fills its bits is that of a double, or is packed to an infinity. -/
theorem unpack_pack_of_fillsBits {sign : Sign} {mantissa : Nat} {exponent : Int}
    {positive : 0 < mantissa} (filled : FillsBits mantissa exponent)
    : (Float.Model.pack (.finite sign mantissa exponent positive)).unpack
        = .finite sign mantissa exponent positive
      ∨ (Float.Model.pack (.finite sign mantissa exponent positive)).unpack = .infinity sign := by
  obtain ⟨short, least, normal⟩ := filled
  rcases lt_or_ge 971 exponent with large | small
  · right
    have outside : 2 ^ 11 ≤ (exponent + 1023 + 52).toNat + 1 := by omega
    have packed : pack Format.binary64 (.finite sign mantissa exponent positive)
        = pack Format.binary64 (.infinity sign) := if_pos outside
    rw [← (IsSize.infinity sign).unpack_pack]
    simp only [Float.Model.pack, packed]
  · exact .inl (unpack_pack ⟨short, least, small, normal⟩)

theorem ofNat_eq_ofScientific (n : Nat) : Float.ofNat n = Float.ofScientific n false 0 :=
  rfl

theorem isNaN_float_ofNat (n : Nat) : (Float.ofNat n).isNaN = false :=
  isNaN_ofScientific n false 0

theorem unpack_ofInt_zero : (Float.ofInt 0).toModel.unpack = .zero .positive := by
  have same : Float.ofInt 0 = 0.0 := by decide +kernel
  rw [same, unpack_zero]

/-- A whole number of at most 53 bits is a double. -/
theorem unpack_ofNat {whole : Nat} (some : 0 < whole) (small : whole < 2 ^ 53)
    : ∃ (shift : Nat) (positive : 0 < whole * 2 ^ shift),
        (Float.ofNat whole).toModel.unpack
          = .finite .positive (whole * 2 ^ shift) (-(shift : Int)) positive
        ∧ 2 ^ 52 ≤ whole * 2 ^ shift
        ∧ IsCanonical (whole * 2 ^ shift) (-(shift : Int)) := by
  obtain ⟨shift, positive, -, full, canonical⟩ := ofNat_eq some small
  refine ⟨shift, positive, ?_, full, canonical⟩
  have unpacked := @unpack_pack .positive _ _ positive canonical
  have same : (whole : ℚ) * 10 ^ (Int.ofNat 0)
      = (whole * 2 ^ shift : Nat) * 2 ^ (-(shift : Int)) := by
    rw [zpow_neg, zpow_natCast]
    push_cast
    field_simp
  rw [ofNat_eq_ofScientific, @ofScientific_eq _ _ _ positive
    (.ofModel (.pack (.finite .positive _ _ positive))) whole 0 false unpacked (roundsTo_self _ _)
    same]
  exact unpacked

theorem value_ofNat_of_lt {whole : Nat} (some : 0 < whole) (small : whole < 2 ^ 53)
    : value (Float.ofNat whole) = whole := by
  obtain ⟨shift, positive, unpacked, -, -⟩ := unpack_ofNat some small
  rw [value_eq unpacked]
  simp only [unpackedValue, signed]
  rw [zpow_neg, zpow_natCast]
  push_cast
  field_simp

/-- A whole number of more bits is converted by rounding it once. -/
theorem unpack_ofNat_of_roundsTo {whole mantissa : Nat} {exponent : Int}
    (large : ¬ whole < 2 ^ 53) (filled : FillsBits mantissa exponent) (positive : 0 < mantissa)
    (rounds : RoundsTo (whole / 2 ^ exponent) mantissa exponent)
    : (Float.ofNat whole).toModel.unpack
      = (Float.Model.pack (.finite .positive mantissa exponent positive)).unpack := by
  have slow : ¬ (whole < 2 ^ 53 ∧ 0 ≤ 22) := fun small => large small.1
  have some : whole ≠ 0 := by omega
  have far : ¬ (0 : Int) < -((2 ^ 11 : Int) + whole.log2) := by omega
  have rounded : UnpackedFloat.ofScientific Format.binary64 whole 0
      = .finite .positive mantissa exponent positive := by
    unfold UnpackedFloat.ofScientific
    rw [dif_neg some, if_neg (by decide), if_neg far, if_pos le_rfl]
    refine rounds.mul filled ?_ ?_
    · change 2 ^ 52 ≤ whole <<< 53
      rw [Nat.shiftLeft_eq]
      omega
    · have place : (2 : ℚ) ^ exponent ≠ 0 := by positivity
      have bits : Format.binary64.mantissaBits = 53 := rfl
      rw [div_mul_cancel₀ _ place, bits, Nat.shiftLeft_eq]
      push_cast
      norm_num
      ring
  rw [ofNat_eq_ofScientific, Float.ofScientific, dif_neg slow]
  change (Float.Model.pack (UnpackedFloat.ofScientific Format.binary64 whole 0)).unpack = _
  rw [rounded]

/-- A whole number is rounded to the nearest double, if that is finite. -/
theorem value_ofNat {n : Nat} (some : 0 < n) (finite : (Float.ofNat n).isFinite = true)
    : ∃ units unit,
        RoundsIn 52 (-1074) n units unit ∧ value (Float.ofNat n) = units * 2 ^ unit := by
  by_cases small : n < 2 ^ 53
  · obtain ⟨shift, positive, unpacked, -, canonical⟩ := unpack_ofNat some small
    have rounds := canonical.roundsIn
    have same : ((n * 2 ^ shift : Nat) : ℚ) * 2 ^ (-(shift : Int)) = n :=
      (value_eq unpacked).symm.trans (value_ofNat_of_lt some small)
    exact ⟨_, _, same ▸ rounds, value_eq unpacked⟩
  · have rounds := roundsIn_unitsNearestEven some 52 (-1074) 0
    have coarse : max (0 + (n.log2 : Int) - (52 : Nat)) (-1074) ≠ -1074 := by omega
    rw [zpow_zero, mul_one] at rounds
    obtain ⟨mantissa, place, filled, positive, rounds', same⟩ :=
      rounds.exists_roundsTo (lt_of_lt_of_le (by decide) (rounds.le_units coarse))
    have unpacked := unpack_ofNat_of_roundsTo small filled positive rounds'
    refine ⟨_, _, rounds, ?_⟩
    rcases unpack_pack_of_fillsBits filled with packed | packed
    · rw [← same]
      exact value_eq (unpacked.trans packed)
    · change (Float.ofNat n).toModel.unpack.isFinite = true at finite
      rw [unpacked, packed] at finite
      contradiction

/-- What rounds to a form beyond the doubles lies at most half a place of the largest double before
the first power of two there.
-/
theorem RoundsTo.beyond_le {size : ℚ} {mantissa : Nat} {exponent : Int}
    (rounds : RoundsTo (size / 2 ^ exponent) mantissa exponent)
    (filled : FillsBits mantissa exponent) (large : 971 < exponent)
    : (2 : ℚ) ^ (1024 : Int) - 2 ^ (970 : Int) ≤ size := by
  have full : 2 ^ 52 ≤ mantissa := filled.2.2.resolve_right (by omega)
  have place : (0 : ℚ) < 2 ^ exponent := by positivity
  have near : (2 ^ 52 - 1 / 4 : ℚ) ≤ size / 2 ^ exponent := by
    rcases Nat.eq_or_lt_of_le full with power | more
    · have below := rounds.below power.symm (by omega)
      rw [← power] at below
      exact_mod_cast below
    · have more : (2 ^ 52 + 1 : ℚ) ≤ mantissa := by exact_mod_cast more
      linarith [rounds.nearest.1]
  calc (2 : ℚ) ^ (1024 : Int) - 2 ^ (970 : Int)
      = 2 ^ (972 + 52 : Int) - 2 ^ (972 + -2 : Int) := by norm_num only
    _ = (2 ^ 52 - 1 / 4) * 2 ^ (972 : Int) := by
        rw [zpow_add₀ two_ne_zero, zpow_add₀ two_ne_zero]
        generalize (2 : ℚ) ^ (972 : Int) = unit
        norm_num
        ring
    _ ≤ (2 ^ 52 - 1 / 4) * 2 ^ exponent :=
        mul_le_mul_of_nonneg_left (zpow_le_zpow_right₀ (by norm_num) (by omega)) (by norm_num)
    _ ≤ size := (le_div_iff₀ place).mp near

/-- Whole numbers are converted to finite doubles up to half a place behind the largest of these. -/
theorem isFinite_ofNat {n : Nat} (inside : (n : ℚ) < 2 ^ (1024 : Int) - 2 ^ (970 : Int))
    : (Float.ofNat n).isFinite = true := by
  change (Float.ofNat n).toModel.unpack.isFinite = true
  rcases Nat.eq_zero_or_pos n with rfl | some
  · exact congrArg UnpackedFloat.isFinite unpack_ofInt_zero
  by_cases small : n < 2 ^ 53
  · obtain ⟨shift, positive, unpacked, -, -⟩ := unpack_ofNat some small
    rw [unpacked]
    rfl
  · have rounds := roundsIn_unitsNearestEven some 52 (-1074) 0
    have coarse : max (0 + (n.log2 : Int) - (52 : Nat)) (-1074) ≠ -1074 := by omega
    rw [zpow_zero, mul_one] at rounds
    obtain ⟨mantissa, place, filled, positive, rounds', -⟩ :=
      rounds.exists_roundsTo (lt_of_lt_of_le (by decide) (rounds.le_units coarse))
    have most : place ≤ 971 := by
      by_contra large
      exact absurd inside (not_lt.mpr (rounds'.beyond_le filled (by omega)))
    have canonical : IsCanonical mantissa place := ⟨filled.1, filled.2.1, most, filled.2.2⟩
    rw [unpack_ofNat_of_roundsTo small filled positive rounds']
    exact congrArg UnpackedFloat.isFinite (@unpack_pack .positive _ _ positive canonical)

theorem isFinite_ofInt {n : Int} (inside : |(n : ℚ)| < 2 ^ (1024 : Int) - 2 ^ (970 : Int))
    : (Float.ofInt n).isFinite = true := by
  cases n with
  | ofNat n => exact isFinite_ofNat (by simpa using inside)
  | negSucc n =>
      have size : |((Int.negSucc n : Int) : ℚ)| = (n + 1 : Nat) := by
        rw [Int.negSucc_eq]
        push_cast
        rw [abs_neg, abs_of_nonneg (by positivity)]
      exact (isFinite_neg (isNaN_float_ofNat (n + 1))).trans (isFinite_ofNat (size ▸ inside))

/-- Doubles are rounded to themselves. -/
theorem roundsSigned_value {x : Float} (finite : x.isFinite = true)
    : RoundsSigned 52 (-1074) id (value x) (value x) := by
  change x.toModel.unpack.isFinite = true at finite
  unfold value
  cases unpacked : x.toModel.unpack with
  | notANumber | infinity sign =>
      rw [unpacked] at finite
      contradiction
  | zero sign =>
      exact ⟨.positive, 0, 0, -1074, rfl, le_rfl, roundsIn_zero 52 (-1074), by
        simp [unpackedValue, signed]⟩
  | finite sign mantissa exponent positive =>
      exact ⟨sign, _, _, _, rfl, by positivity, (isCanonical_unpack unpacked).roundsIn, rfl⟩

/-- Whole numbers are rounded to the doubles that they are converted to. -/
theorem roundsSigned_ofInt {n : Int} (finite : (Float.ofInt n).isFinite = true)
    : RoundsSigned 52 (-1074) id n (value (Float.ofInt n)) := by
  cases n with
  | ofNat n =>
      rcases Nat.eq_zero_or_pos n with rfl | some
      · exact ⟨.positive, 0, 0, -1074, rfl, le_rfl, roundsIn_zero 52 (-1074), by
          simp [value_eq unpack_ofInt_zero, unpackedValue, signed]⟩
      · obtain ⟨units, unit, rounds, rounded⟩ := value_ofNat some finite
        exact ⟨.positive, n, units, unit, by simp [signed], by positivity, rounds, rounded⟩
  | negSucc n =>
      have finite' : (Float.ofNat (n + 1)).isFinite = true :=
        (isFinite_neg (isNaN_float_ofNat (n + 1))).symm.trans finite
      obtain ⟨units, unit, rounds, rounded⟩ := value_ofNat (Nat.succ_pos n) finite'
      refine ⟨.negative, (n + 1 : Nat), units, unit, by simp [signed, Int.negSucc_eq],
        by positivity, rounds, ?_⟩
      exact (value_neg (isNaN_float_ofNat (n + 1))).trans (congrArg (-·) rounded)

/-- Whole numbers of at most 53 bits are converted exactly. -/
theorem value_ofInt_of_lt {n : Int} (small : n.natAbs < 2 ^ 53)
    : (Float.ofInt n).isNaN = false ∧ value (Float.ofInt n) = n := by
  cases n with
  | ofNat n =>
      refine ⟨isNaN_float_ofNat n, ?_⟩
      rcases Nat.eq_zero_or_pos n with rfl | some
      · exact (value_eq unpack_ofInt_zero).trans (by simp [unpackedValue])
      · exact_mod_cast value_ofNat_of_lt some small
  | negSucc n =>
      refine ⟨isNaN_neg (isNaN_float_ofNat (n + 1)), ?_⟩
      refine (value_neg (isNaN_float_ofNat (n + 1))).trans ?_
      rw [value_ofNat_of_lt (Nat.succ_pos n) small]
      simp [Int.negSucc_eq]

end Wavetable.Number
