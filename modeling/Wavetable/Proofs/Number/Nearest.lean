import Mathlib.Algebra.Order.Field.Power
import Mathlib.Tactic.FieldSimp
import Mathlib.Tactic.Linarith
import Mathlib.Tactic.NormNum
import Mathlib.Tactic.Ring
import Wavetable.Proofs.Number.Unpacked

/-!
Rounding to doubles. A mantissa with its residual bits tells where an exact number lies; shifts keep
the place, and rounding yields the nearest mantissa.
-/

namespace Wavetable.Number

open Float.Model (Format UnpackedFloat totalExponent)
open Float.Model.UnpackedFloat

/-- Where a count of units lies from a mantissa on: at the mantissa itself, or on one side of the
middle between it and the next one, or in the middle.
-/
def Locates (units : ℚ) (mantissa : Nat) : Accuracy → Prop
  | .exact => units = mantissa
  | .inexact .lt => mantissa < units ∧ units < mantissa + 1 / 2
  | .inexact .eq => units = mantissa + 1 / 2
  | .inexact .gt => mantissa + 1 / 2 < units ∧ units < mantissa + 1

section
variable {units : ℚ} {mantissa : Nat} {accuracy : Accuracy}

theorem Locates.bounds (located : Locates units mantissa accuracy)
    : (mantissa : ℚ) ≤ units ∧ units < mantissa + 1 := by
  rcases accuracy with _ | order
  · simp only [Locates] at located
    constructor <;> linarith
  cases order with
  | lt => exact ⟨located.1.le, by linarith [located.2]⟩
  | eq =>
      simp only [Locates] at located
      constructor <;> linarith
  | gt => exact ⟨by linarith [located.1], located.2⟩

/-- In units twice as large the residual bits tell the place as well. -/
theorem Locates.shiftRightOne {em : ExtendedMantissa}
    (located : Locates units em.mantissa em.accuracy)
    : Locates (units / 2) em.shiftRightOne.mantissa em.shiftRightOne.accuracy := by
  obtain ⟨mantissa, round, sticky⟩ := em
  -- the last bit of the mantissa becomes the round bit
  rcases Nat.even_or_odd' mantissa with ⟨half, rfl | rfl⟩
  · have even : 2 * half / 2 = half ∧ (2 * half % 2 != 0) = false := by
      constructor <;> simp
    cases round <;> cases sticky <;>
      · simp only [ExtendedMantissa.shiftRightOne, ExtendedMantissa.accuracy, Locates, even,
          Bool.or_true, Bool.or_false, Nat.cast_mul, Nat.cast_ofNat] at located ⊢
        first | linarith | constructor <;> linarith
  · have odd : (2 * half + 1) / 2 = half ∧ ((2 * half + 1) % 2 != 0) = true := by
      constructor
      · omega
      · simp
    cases round <;> cases sticky <;>
      · simp only [ExtendedMantissa.shiftRightOne, ExtendedMantissa.accuracy, Locates, odd,
          Bool.or_true, Bool.or_false, Nat.cast_add, Nat.cast_mul, Nat.cast_ofNat,
          Nat.cast_one] at located ⊢
        first | linarith | constructor <;> linarith

theorem shift_succ (em : ExtendedMantissa) (shift : Nat)
    : em >>> (shift + 1) = (em >>> shift).shiftRightOne := rfl

theorem mantissa_shift (em : ExtendedMantissa) (shift : Nat)
    : (em >>> shift).mantissa = em.mantissa / 2 ^ shift := by
  induction shift with
  | zero => rw [pow_zero, Nat.div_one]; rfl
  | succ shift ih => rw [shift_succ, pow_succ, ← Nat.div_div_eq_div_mul, ← ih]; rfl

theorem ofMantissaAndAccuracy_parts (mantissa : Nat) (accuracy : Accuracy)
    : (ExtendedMantissa.ofMantissaAndAccuracy mantissa accuracy).mantissa = mantissa
      ∧ (ExtendedMantissa.ofMantissaAndAccuracy mantissa accuracy).accuracy = accuracy := by
  rcases accuracy with _ | order
  · exact ⟨rfl, rfl⟩
  cases order <;> exact ⟨rfl, rfl⟩

theorem Locates.shift (located : Locates units mantissa accuracy) (shift : Nat)
    : Locates (units / 2 ^ shift)
        (ExtendedMantissa.ofMantissaAndAccuracy mantissa accuracy >>> shift).mantissa
        (ExtendedMantissa.ofMantissaAndAccuracy mantissa accuracy >>> shift).accuracy := by
  induction shift with
  | zero =>
      obtain ⟨same, same'⟩ := ofMantissaAndAccuracy_parts mantissa accuracy
      rw [pow_zero, div_one]
      exact same.symm ▸ same'.symm ▸ located
  | succ shift ih =>
      rw [shift_succ, pow_succ, ← div_div]
      exact ih.shiftRightOne

/-- A whole number is the nearest one, or one of the nearest two and even. -/
def IsNearest (units : ℚ) (whole : Nat) : Prop :=
  whole - 1 / 2 ≤ units ∧ units ≤ whole + 1 / 2
    ∧ (whole % 2 = 1 → whole - 1 / 2 < units ∧ units < whole + 1 / 2)

theorem isNearest_self (whole : Nat) : IsNearest whole whole :=
  ⟨by linarith, by linarith, fun _ => ⟨by linarith, by linarith⟩⟩

/-- Rounding yields the nearest whole number. -/
theorem Locates.rounded {whole : Nat} (located : Locates units mantissa accuracy)
    (nearest : IsNearest units whole)
    : accuracy.roundToNearestEven mantissa = whole := by
  obtain ⟨below, above, odd⟩ := nearest
  have within : (mantissa : ℚ) < whole + 1 → (whole : ℚ) < mantissa + 1 → mantissa = whole := by
    norm_cast
    omega
  rcases accuracy with _ | order
  · simp only [Locates] at located
    exact within (by linarith) (by linarith)
  cases order with
  | lt =>
      obtain ⟨behind, before⟩ := located
      exact within (by linarith) (by linarith)
  | eq =>
      simp only [Locates] at located
      have first : (mantissa : ℚ) ≤ whole := by linarith
      have second : (whole : ℚ) ≤ mantissa + 1 := by linarith
      norm_cast at first second
      simp only [Accuracy.roundToNearestEven]
      -- in the middle between two, the nearest one is even
      by_cases parity : whole % 2 = 1
      · obtain ⟨first, second⟩ := odd parity
        have first : (mantissa : ℚ) < whole := by linarith
        have second : (whole : ℚ) < mantissa + 1 := by linarith
        norm_cast at first second
        omega
      · omega
  | gt =>
      obtain ⟨behind, before⟩ := located
      have first : (mantissa : ℚ) < whole := by linarith
      have second : (whole : ℚ) < mantissa + 2 := by linarith
      norm_cast at first second
      simp only [Accuracy.roundToNearestEven]
      omega

/-- The numbers, in units of the last place of a canonical form, that round to it. Below a power of
two the next form is only half as far away.
-/
structure RoundsTo (units : ℚ) (mantissa : Nat) (exponent : Int) : Prop where
  nearest : IsNearest units mantissa
  below : mantissa = 2 ^ 52 → -1074 < exponent → (mantissa : ℚ) - 1 / 4 ≤ units

theorem targetExponent_eq (mantissa : Nat) (exponent : Int)
    : Format.binary64.targetExponent (totalExponent mantissa exponent)
      = max (mantissa.log2 + exponent - 52) (-1074) := by
  simp only [Format.targetExponent, totalExponent, Format.mantissaBits, Format.minExponent]
  omega

theorem FillsBits.targetExponent {exponent : Int} (filled : FillsBits mantissa exponent)
    (positive : 0 < mantissa)
    : Format.binary64.targetExponent (totalExponent mantissa exponent) = exponent := by
  obtain ⟨short, least, normal⟩ := filled
  rw [targetExponent_eq]
  have upper : mantissa.log2 < 53 := (Nat.log2_lt positive.ne').mpr short
  have lower : 2 ^ 52 ≤ mantissa → 52 ≤ mantissa.log2 := (Nat.le_log2 positive.ne').mpr
  omega

/-- The first shift leaves at most 53 bits, and so many if the exponent is not the least one. -/
theorem shifted_bits {exponent : Int} (enough : exponent ≤ -1074 ∨ 2 ^ 52 ≤ mantissa)
    : ∃ shift : Nat,
        Format.binary64.targetExponent (totalExponent mantissa exponent) = exponent + shift
        ∧ -1074 ≤ exponent + shift ∧ mantissa / 2 ^ shift < 2 ^ 53
        ∧ (2 ^ 52 ≤ mantissa / 2 ^ shift ∨ exponent + shift = -1074) := by
  rw [targetExponent_eq]
  have upper : mantissa < 2 ^ (mantissa.log2 + 1) := Nat.lt_log2_self
  have full : 2 ^ 52 ≤ mantissa → 52 ≤ mantissa.log2 := by
    intro full
    exact (Nat.le_log2 (by omega)).mpr full
  refine ⟨(max (mantissa.log2 + exponent - 52) (-1074) - exponent).toNat, by omega, by omega,
    ?_, ?_⟩
  · rw [Nat.div_lt_iff_lt_mul (by positivity), ← pow_add]
    exact upper.trans_le (Nat.pow_le_pow_right (by decide) (by omega))
  · by_cases least : mantissa.log2 + exponent - 52 ≤ -1074
    · right
      omega
    · left
      have some : mantissa ≠ 0 := by
        rintro rfl
        simp only [Nat.log2_zero] at least
        omega
      rw [Nat.le_div_iff_mul_le (by positivity), ← pow_add]
      exact (Nat.pow_le_pow_right (by decide) (by omega)).trans (Nat.log2_self_le some)

end

/-- A size in units of two places: the coarser one counts fewer. -/
theorem units_eq {units units' : ℚ} {exponent exponent' : Int} (distance : Nat)
    (apart : exponent = exponent' + distance)
    (same : units * 2 ^ exponent = units' * 2 ^ exponent')
    : units' = units * 2 ^ distance := by
  have unit : (0 : ℚ) < 2 ^ exponent' := by positivity
  rw [apart, zpow_add₀ (by norm_num), zpow_natCast] at same
  refine mul_right_cancel₀ unit.ne' ?_
  rw [← same]
  ring

section
variable {mantissa low : Nat} {exponent target : Int} {units units' : ℚ}

/-- A number does not round to a form of a lower place, since it has more bits there than a form. -/
theorem RoundsTo.not_coarser (rounds : RoundsTo units mantissa exponent)
    (filled : FillsBits mantissa exponent) (behind : (low : ℚ) ≤ units')
    (full : 2 ^ 52 ≤ low ∨ target = -1074)
    (same : units' * 2 ^ target = units * 2 ^ exponent)
    : ¬ exponent < target := by
  intro coarser
  obtain ⟨small, leastExponent, -⟩ := filled
  have small : (mantissa : ℚ) + 1 ≤ 2 ^ 53 := by exact_mod_cast small
  have whole : (2 ^ 52 : ℚ) ≤ low := by
    exact_mod_cast full.resolve_right (by omega)
  obtain ⟨more, apart⟩ : ∃ more : Nat, target = exponent + (more + 1 : Nat) :=
    ⟨(target - exponent - 1).toNat, by omega⟩
  have counted := units_eq (more + 1) apart same
  rw [pow_succ] at counted
  have factor : (1 : ℚ) ≤ 2 ^ more := one_le_pow₀ (by norm_num)
  have above := rounds.nearest.2.1
  nlinarith

/-- A number rounds to a form of a higher place only just below a power of two, and the place is
the next one.
-/
theorem RoundsTo.finer (rounds : RoundsTo units mantissa exponent)
    (filled : FillsBits mantissa exponent) (before : units' < low + 1) (short : low < 2 ^ 53)
    (least : -1074 ≤ target) (same : units' * 2 ^ target = units * 2 ^ exponent)
    (finer : target < exponent)
    : target + 1 = exponent ∧ mantissa = 2 ^ 52 ∧ IsNearest units' (2 ^ 53) := by
  obtain ⟨-, -, normal⟩ := filled
  obtain ⟨⟨below, -, -⟩, close⟩ := rounds
  have short : (low : ℚ) + 1 ≤ 2 ^ 53 := by exact_mod_cast short
  have whole : 2 ^ 52 ≤ mantissa := normal.resolve_right (by omega)
  obtain ⟨more, apart⟩ : ∃ more : Nat, exponent = target + (more + 1 : Nat) :=
    ⟨(exponent - target - 1).toNat, by omega⟩
  have counted := units_eq (more + 1) apart same.symm
  rw [pow_succ] at counted
  have factor : (1 : ℚ) ≤ 2 ^ more := one_le_pow₀ (by norm_num)
  have power : mantissa = 2 ^ 52 := by
    have whole : (2 ^ 52 : ℚ) ≤ mantissa := by exact_mod_cast whole
    have half : units < 2 ^ 52 := by nlinarith
    have tight : (mantissa : ℚ) < 2 ^ 52 + 1 := by linarith
    have tight : mantissa < 2 ^ 52 + 1 := by exact_mod_cast tight
    omega
  have close := close power (by omega)
  rw [power] at close
  push_cast at close
  -- two places apart, the number would be far below the power
  have next : more = 0 := by
    by_contra further
    have factor : (2 : ℚ) ≤ 2 ^ more := le_self_pow₀ (by norm_num) further
    nlinarith
  subst next
  refine ⟨by omega, power, ?_, ?_, ?_⟩
  · push_cast
    linarith
  · push_cast
    linarith
  · intro odd
    exact absurd odd (by decide)

/-- The first shift leads to the place of a canonical form to which a number rounds. Only just below
a power of two it leads to the place before it, where the number rounds up to that power.
-/
theorem RoundsTo.place (rounds : RoundsTo units mantissa exponent)
    (filled : FillsBits mantissa exponent) (behind : (low : ℚ) ≤ units')
    (before : units' < low + 1) (short : low < 2 ^ 53) (least : -1074 ≤ target)
    (full : 2 ^ 52 ≤ low ∨ target = -1074)
    (same : units' * 2 ^ target = units * 2 ^ exponent)
    : (target = exponent ∧ units' = units)
      ∨ (target + 1 = exponent ∧ mantissa = 2 ^ 52 ∧ IsNearest units' (2 ^ 53)) := by
  rcases lt_trichotomy target exponent with finer | rfl | coarser
  · exact .inr (rounds.finer filled before short least same finer)
  · exact .inl ⟨rfl, mul_right_cancel₀ (by positivity) same⟩
  · exact absurd coarser (rounds.not_coarser filled behind full same)

theorem shiftToTargetExponent_eq {mantissa : Nat} {exponent : Int} (accuracy : Accuracy)
    (shift : Nat)
    (place : Format.binary64.targetExponent (totalExponent mantissa exponent) = exponent + shift)
    : shiftToTargetExponent Format.binary64 mantissa exponent accuracy
      = (ExtendedMantissa.ofMantissaAndAccuracy mantissa accuracy >>> shift, exponent + shift) := by
  have far : (exponent + shift - exponent).toNat = shift := by omega
  simp only [shiftToTargetExponent, shiftToExponent, place, far]

/-- Rounding is done in two shifts, the second one of an exact mantissa. -/
theorem roundWithAccuracy_of_shifts {sign : Sign} {mantissa mantissa' rounded : Nat}
    {exponent exponent' place : Int} {accuracy : Accuracy} {em em' : ExtendedMantissa}
    (first : shiftToTargetExponent Format.binary64 mantissa exponent accuracy = (em, place))
    (nearest : em.roundedMantissa = rounded)
    (second : shiftToTargetExponent Format.binary64 rounded place .exact = (em', exponent'))
    (final : em'.mantissa = mantissa') (positive : 0 < mantissa')
    : roundWithAccuracy Format.binary64 sign mantissa exponent accuracy
      = .finite sign mantissa' exponent' positive := by
  subst nearest final
  unfold roundWithAccuracy
  rw [first]
  simp only [second]
  rw [dif_neg positive.ne']

/-- A number that rounds to a canonical form is rounded to it, if enough of its bits are there. -/
theorem RoundsTo.roundWithAccuracy {sign : Sign} {start : Nat} {origin : Int} {accuracy : Accuracy}
    (rounds : RoundsTo units mantissa exponent) (filled : FillsBits mantissa exponent)
    (positive : 0 < mantissa) (located : Locates units' start accuracy)
    (enough : origin ≤ -1074 ∨ 2 ^ 52 ≤ start)
    (same : units' * 2 ^ origin = units * 2 ^ exponent)
    : roundWithAccuracy Format.binary64 sign start origin accuracy
      = .finite sign mantissa exponent positive := by
  obtain ⟨shift, place, least, short, full⟩ := shifted_bits enough
  have shifted := located.shift shift
  have kept := mantissa_shift (ExtendedMantissa.ofMantissaAndAccuracy start accuracy) shift
  rw [(ofMantissaAndAccuracy_parts start accuracy).1] at kept
  have bounds := shifted.bounds
  rw [kept] at bounds
  have same : units' / 2 ^ shift * 2 ^ (origin + shift) = units * 2 ^ exponent := by
    rw [← same, zpow_add₀ (by norm_num), zpow_natCast]
    field_simp
  have first := shiftToTargetExponent_eq accuracy shift place
  rcases rounds.place filled bounds.1 bounds.2 short least full same with
    ⟨rfl, counted⟩ | ⟨next, power, nearest⟩
  · have nearest : IsNearest (units' / 2 ^ shift) mantissa := counted ▸ rounds.nearest
    have settled := filled.targetExponent positive
    have second := shiftToTargetExponent_eq .exact 0 (settled.trans (by simp))
    rw [Nat.cast_zero, add_zero] at second
    exact roundWithAccuracy_of_shifts first (shifted.rounded nearest) second rfl positive
  · subst power next
    -- the mantissa has grown to 54 bits, of which the second shift drops a zero
    have settled : Format.binary64.targetExponent (totalExponent (2 ^ 53) (origin + shift))
        = origin + shift + (1 : Nat) := by
      rw [targetExponent_eq, Nat.log2_two_pow]
      omega
    have second := shiftToTargetExponent_eq .exact 1 settled
    exact roundWithAccuracy_of_shifts first (shifted.rounded nearest) second rfl positive

end

end Wavetable.Number
