import Mathlib.Algebra.Order.Field.Power
import Mathlib.Tactic.Linarith
import Mathlib.Tactic.NormNum
import Mathlib.Tactic.Positivity
import Wavetable.Proofs.Number.Comparison
import Wavetable.Proofs.Number.Unpacked

/-!
Doubles as exact numbers. They are compared as the numbers that they stand for; an infinity counts
as the first power of two behind all finite doubles.
-/

namespace Wavetable.Number

open Float.Model (UnpackedFloat)
open Float.Model.UnpackedFloat

/-- A size with a sign. -/
def signed : Sign → ℚ → ℚ
  | .positive, size => size
  | .negative, size => -size

/-- The first power of two behind all finite doubles. -/
@[irreducible]
def beyond : ℚ :=
  2 ^ (1024 : Int)

/-- The number that an unpacked form stands for. -/
def unpackedValue : UnpackedFloat → ℚ
  | .notANumber => 0
  | .infinity sign => signed sign beyond
  | .zero _ => 0
  | .finite sign mantissa exponent _ => signed sign (mantissa * 2 ^ exponent)

/-- The exact number that a double stands for. -/
def value (x : Float) : ℚ :=
  unpackedValue x.toModel.unpack

section
variable {mantissa mantissa' : Nat} {exponent exponent' : Int}

/-- Of canonical forms, one with a greater exponent is greater: its mantissa fills its bits. -/
theorem size_lt_of_exponent_lt (canonical : IsCanonical mantissa exponent)
    (canonical' : IsCanonical mantissa' exponent') (above : exponent < exponent')
    : (mantissa * 2 ^ exponent : ℚ) < mantissa' * 2 ^ exponent' := by
  obtain ⟨short, least, -, -⟩ := canonical
  obtain ⟨-, -, -, normal⟩ := canonical'
  have full : 2 ^ 52 ≤ mantissa' := normal.resolve_right (by omega)
  have short : (mantissa : ℚ) < 2 ^ (53 : Int) := by exact_mod_cast short
  have full : (2 : ℚ) ^ (52 : Int) ≤ mantissa' := by exact_mod_cast full
  calc (mantissa * 2 ^ exponent : ℚ) < 2 ^ (53 : Int) * 2 ^ exponent :=
        mul_lt_mul_of_pos_right short (by positivity)
    _ = 2 ^ (52 + (exponent + 1)) := by rw [← zpow_add₀ two_ne_zero]; congr 1; ring
    _ ≤ 2 ^ (52 + exponent') := zpow_le_zpow_right₀ (by norm_num) (by omega)
    _ = 2 ^ (52 : Int) * 2 ^ exponent' := zpow_add₀ two_ne_zero _ _
    _ ≤ mantissa' * 2 ^ exponent' := mul_le_mul_of_nonneg_right full (by positivity)

/-- Canonical forms are compared by their exponents, and by their mantissas among equal ones. -/
theorem compare_canonical (canonical : IsCanonical mantissa exponent)
    (canonical' : IsCanonical mantissa' exponent')
    : (compare exponent exponent').then (compare mantissa mantissa')
      = cmp (mantissa * 2 ^ exponent : ℚ) (mantissa' * 2 ^ exponent') := by
  rcases lt_trichotomy exponent exponent' with below | rfl | above
  · rw [compare_lt_iff_lt.mpr below]
    exact ((cmp_eq_lt_iff _ _).mpr (size_lt_of_exponent_lt canonical canonical' below)).symm
  · rw [compare_eq_iff_eq.mpr rfl]
    have unit : (0 : ℚ) < 2 ^ exponent := by positivity
    rw [cmp_mul_pos_right unit, Ordering.eq_then]
    rcases lt_trichotomy mantissa mantissa' with less | rfl | more
    · rw [compare_lt_iff_lt.mpr less]
      exact ((cmp_eq_lt_iff _ _).mpr (by exact_mod_cast less)).symm
    · rw [compare_eq_iff_eq.mpr rfl]
      exact ((cmp_eq_eq_iff _ _).mpr rfl).symm
    · rw [compare_gt_iff_gt.mpr more]
      exact ((cmp_eq_gt_iff _ _).mpr (by exact_mod_cast more)).symm
  · rw [compare_gt_iff_gt.mpr above]
    exact ((cmp_eq_gt_iff _ _).mpr (size_lt_of_exponent_lt canonical' canonical above)).symm

/-- Finite doubles lie below the number of infinity. -/
theorem IsCanonical.size_lt (canonical : IsCanonical mantissa exponent)
    : (mantissa * 2 ^ exponent : ℚ) < beyond := by
  obtain ⟨short, -, most, -⟩ := canonical
  have short : (mantissa : ℚ) < 2 ^ (53 : Int) := by exact_mod_cast short
  calc (mantissa * 2 ^ exponent : ℚ) < 2 ^ (53 : Int) * 2 ^ exponent :=
        mul_lt_mul_of_pos_right short (by positivity)
    _ = 2 ^ (53 + exponent) := (zpow_add₀ two_ne_zero _ _).symm
    _ ≤ 2 ^ (1024 : Int) := zpow_le_zpow_right₀ (by norm_num) (by omega)
    _ = beyond := by rw [beyond]

theorem size_pos (exponent : Int) (positive : 0 < mantissa)
    : (0 : ℚ) < mantissa * 2 ^ exponent := by
  have some : (0 : ℚ) < mantissa := by exact_mod_cast positive
  positivity

end

/-- The size of a double that is not NaN: zero, that of a canonical form, or that of infinity. -/
inductive IsSize : UnpackedFloat → Prop
  | infinity (sign : Sign) : IsSize (.infinity sign)
  | zero (sign : Sign) : IsSize (.zero sign)
  | finite {sign mantissa exponent positive} (canonical : IsCanonical mantissa exponent)
    : IsSize (.finite sign mantissa exponent positive)

section
variable {x y : Float}

theorem isSize_unpack (number : x.isNaN = false) : IsSize x.toModel.unpack := by
  change x.toModel.unpack.isNaN = false at number
  cases unpacked : x.toModel.unpack with
  | notANumber => simp [unpacked, UnpackedFloat.isNaN] at number
  | infinity sign => exact .infinity sign
  | zero sign => exact .zero sign
  | finite sign mantissa exponent positive => exact .finite (isCanonical_unpack unpacked)

theorem beyond_pos : 0 < beyond := by
  unfold beyond
  positivity

theorem cmp_neg_neg (a b : ℚ) : cmp (-a) (-b) = (cmp a b).swap := by
  rw [cmp_swap]
  simp only [cmp, cmpUsing, neg_lt_neg_iff]

/-- Zero and the finite forms lie between the infinities. -/
theorem IsSize.between {f : UnpackedFloat} (size : IsSize f) (finite : f.isFinite = true)
    : -beyond < unpackedValue f ∧ unpackedValue f < beyond := by
  have above := beyond_pos
  cases size with
  | infinity sign => contradiction
  | zero sign => simp [unpackedValue, above]
  | @finite sign mantissa exponent positive canonical =>
      have some := size_pos exponent positive
      have below := canonical.size_lt
      cases sign <;> simp only [unpackedValue, signed] <;> constructor <;> linarith

section
variable {a b : ℚ}

theorem lt_eq_cmp (less : a < b) : some .lt = some (cmp a b) :=
  congrArg some ((cmp_eq_lt_iff a b).mpr less).symm

theorem gt_eq_cmp (more : b < a) : some .gt = some (cmp a b) :=
  congrArg some ((cmp_eq_gt_iff a b).mpr more).symm

end

/-- Forms are compared as the numbers that they stand for. Of two finite ones with the same sign the
exponents and mantissas decide, and everywhere else the signs or the size of infinity.
-/
theorem IsSize.compare_eq {f g : UnpackedFloat} (size : IsSize f) (size' : IsSize g)
    : f.compare g = some (cmp (unpackedValue f) (unpackedValue g)) := by
  have apart : -beyond < beyond := neg_lt_self beyond_pos
  have between := size.between
  have between' := size'.between
  cases size with
  | infinity sign =>
      cases size' with
      | infinity sign' =>
          cases sign <;> cases sign'
          · exact congrArg some (cmp_self_eq_eq _).symm
          · exact lt_eq_cmp apart
          · exact gt_eq_cmp apart
          · exact congrArg some (cmp_self_eq_eq _).symm
      | zero sign' | finite canonical =>
          obtain ⟨above, below⟩ := between' rfl
          cases sign
          · exact lt_eq_cmp above
          · exact gt_eq_cmp below
  | zero sign =>
      cases size' with
      | infinity sign' =>
          obtain ⟨above, below⟩ := between rfl
          cases sign'
          · exact gt_eq_cmp above
          · exact lt_eq_cmp below
      | zero sign' => exact congrArg some (cmp_self_eq_eq _).symm
      | @finite sign' mantissa exponent positive canonical =>
          have some := size_pos exponent positive
          cases sign'
          · exact gt_eq_cmp (neg_lt_zero.mpr some)
          · exact lt_eq_cmp some
  | @finite sign mantissa exponent positive canonical =>
      have some := size_pos exponent positive
      cases size' with
      | infinity sign' =>
          obtain ⟨above, below⟩ := between rfl
          cases sign <;> cases sign'
          · exact gt_eq_cmp above
          · exact lt_eq_cmp below
          · exact gt_eq_cmp above
          · exact lt_eq_cmp below
      | zero sign' =>
          cases sign
          · exact lt_eq_cmp (neg_lt_zero.mpr some)
          · exact gt_eq_cmp some
      | @finite sign' mantissa' exponent' positive' canonical' =>
          have some' := size_pos exponent' positive'
          have same := compare_canonical canonical canonical'
          cases sign <;> cases sign'
          · refine congrArg Option.some ?_
            simp only [unpackedValue, signed]
            rw [cmp_neg_neg, ← same]
          · exact lt_eq_cmp ((neg_lt_zero.mpr some).trans some')
          · exact gt_eq_cmp ((neg_lt_zero.mpr some').trans some)
          · exact congrArg Option.some same

theorem lt_iff_value (number : x.isNaN = false) (number' : y.isNaN = false)
    : x < y ↔ value x < value y := by
  rw [lt_iff, (isSize_unpack number).compare_eq (isSize_unpack number'), Option.some_inj,
    cmp_eq_lt_iff]
  rfl

theorem le_iff_value (number : x.isNaN = false) (number' : y.isNaN = false)
    : x ≤ y ↔ value x ≤ value y := by
  change decide (x.toModel ≤ y.toModel) = true ↔ _
  rw [decide_eq_true_iff]
  change ((x.toModel.unpack.compare y.toModel.unpack).any (·.isLE)) = true ↔ _
  rw [(isSize_unpack number).compare_eq (isSize_unpack number')]
  change (cmp (value x) (value y)).isLE = true ↔ _
  rcases lt_trichotomy (value x) (value y) with less | same | more
  · simp [(cmp_eq_lt_iff _ _).mpr less, less.le]
  · simp [(cmp_eq_eq_iff _ _).mpr same, same.le]
  · simp [(cmp_eq_gt_iff _ _).mpr more, more]

theorem beq_iff_value (number : x.isNaN = false) (number' : y.isNaN = false)
    : (x == y) = true ↔ value x = value y := by
  change (x.toModel.unpack.compare y.toModel.unpack == some .eq) = true ↔ _
  rw [(isSize_unpack number).compare_eq (isSize_unpack number'), beq_iff_eq, Option.some_inj,
    cmp_eq_eq_iff]
  rfl

/-- Of the numbers, the finite ones lie between the infinities. -/
theorem IsSize.isFinite_iff {f : UnpackedFloat} (size : IsSize f)
    : f.isFinite = true ↔ -beyond < unpackedValue f ∧ unpackedValue f < beyond := by
  have between := size.between
  cases size with
  | infinity sign => cases sign <;> simp [UnpackedFloat.isFinite, unpackedValue, signed]
  | zero sign | finite canonical => exact iff_of_true rfl (between rfl)

theorem isFinite_iff (number : x.isNaN = false)
    : x.isFinite = true ↔ -beyond < value x ∧ value x < beyond :=
  (isSize_unpack number).isFinite_iff

theorem value_eq {f : UnpackedFloat} (unpacked : x.toModel.unpack = f)
    : value x = unpackedValue f :=
  congrArg unpackedValue unpacked

/-- Packing keeps the form of a double. -/
theorem IsSize.unpack_pack {f : UnpackedFloat} (size : IsSize f)
    : (Float.Model.pack f).unpack = f := by
  cases size with
  | infinity sign => exact unpack_packComponents sign (-1) 0
  | zero sign => exact unpack_pack_zero sign
  | finite canonical => exact Number.unpack_pack canonical

theorem IsSize.neg {f : UnpackedFloat} (size : IsSize f) : IsSize f.neg := by
  cases size with
  | infinity sign => exact .infinity _
  | zero sign => exact .zero _
  | finite canonical => exact .finite canonical

theorem IsSize.isNaN {f : UnpackedFloat} (size : IsSize f) : f.isNaN = false := by
  cases size <;> rfl

theorem unpack_neg (number : x.isNaN = false) : (-x).toModel.unpack = x.toModel.unpack.neg :=
  (isSize_unpack number).neg.unpack_pack

theorem isNaN_neg (number : x.isNaN = false) : (-x).isNaN = false := by
  change (-x).toModel.unpack.isNaN = false
  rw [unpack_neg number]
  exact (isSize_unpack number).neg.isNaN

theorem signed_neg (sign : Sign) (size : ℚ) : signed (-sign) size = -signed sign size := by
  cases sign
  · exact (neg_neg size).symm
  · rfl

theorem value_neg (number : x.isNaN = false) : value (-x) = -value x := by
  rw [value_eq (unpack_neg number), value]
  cases x.toModel.unpack with
  | notANumber | zero sign => exact neg_zero.symm
  | infinity sign | finite sign mantissa exponent positive => exact signed_neg sign _

theorem isFinite_neg (number : x.isNaN = false) : (-x).isFinite = x.isFinite := by
  rw [Bool.eq_iff_iff, isFinite_iff (isNaN_neg number), isFinite_iff number, value_neg number]
  constructor <;> rintro ⟨_, _⟩ <;> constructor <;> linarith

end

end Wavetable.Number
