import Wavetable.Number.Double
import Wavetable.Proofs.Number.Arithmetic

/-!
Sums of doubles. The sum of two that are not below zero is their exact sum, rounded once to the
nearest double.
-/

namespace Wavetable.Number

open Float.Model (Format UnpackedFloat)
open Float.Model.UnpackedFloat

-----------------------------------------------------------------------------------------
-- Signs and sizes
-----------------------------------------------------------------------------------------

/-- The forms of finite doubles by their sign, which a zero has as well, and their size. -/
inductive HasSize : UnpackedFloat → Sign → ℚ → Prop
  | zero (sign : Sign) : HasSize (.zero sign) sign 0
  | finite {sign mantissa exponent positive} (canonical : IsCanonical mantissa exponent)
    : HasSize (.finite sign mantissa exponent positive) sign (mantissa * 2 ^ exponent)

/-- Canonical forms of one size are the same. -/
theorem IsCanonical.eq_of_size_eq {mantissa mantissa' : Nat} {exponent exponent' : Int}
    (canonical : IsCanonical mantissa exponent) (canonical' : IsCanonical mantissa' exponent')
    (same : (mantissa * 2 ^ exponent : ℚ) = mantissa' * 2 ^ exponent')
    : mantissa = mantissa' ∧ exponent = exponent' := by
  rcases lt_trichotomy exponent exponent' with below | rfl | above
  · exact absurd same (size_lt_of_exponent_lt canonical canonical' below).ne
  · have place : (2 : ℚ) ^ exponent ≠ 0 := by positivity
    exact ⟨by exact_mod_cast mul_right_cancel₀ place same, rfl⟩
  · exact absurd same (size_lt_of_exponent_lt canonical' canonical above).ne'

section
variable {x y : Float} {f g : UnpackedFloat} {sign : Sign} {size size' : ℚ}

theorem exists_hasSize (finite : x.isFinite = true)
    : ∃ sign size, HasSize x.toModel.unpack sign size := by
  have form := StandsFor.isForm ⟨finite, rfl⟩
  generalize x.toModel.unpack = f, value x = number at form
  cases form with
  | zero sign => exact ⟨sign, 0, .zero sign⟩
  | finite canonical => exact ⟨_, _, .finite canonical⟩

theorem HasSize.isForm (sized : HasSize f sign size) : IsForm f (signed sign size) := by
  cases sized with
  | zero =>
      have none : signed sign 0 = 0 := by cases sign <;> simp [signed]
      rw [none]
      exact .zero sign
  | finite canonical => exact .finite canonical

theorem HasSize.standsFor (sized : HasSize x.toModel.unpack sign size)
    : StandsFor x (signed sign size) :=
  sized.isForm.standsFor rfl

theorem HasSize.nonneg (sized : HasSize f sign size) : 0 ≤ size := by
  cases sized with
  | zero => exact le_rfl
  | finite canonical => positivity

theorem abs_signed (nonneg : 0 ≤ size) : |signed sign size| = size := by
  cases sign with
  | positive => exact abs_of_nonneg nonneg
  | negative => exact (abs_neg size).trans (abs_of_nonneg nonneg)

theorem HasSize.unpack_pack (sized : HasSize f sign size) : (Float.Model.pack f).unpack = f :=
  sized.isForm.isSize.unpack_pack

/-- There is one form for each sign and size. -/
theorem HasSize.unique (sized : HasSize f sign size) (sized' : HasSize g sign size')
    (same : size = size')
    : f = g := by
  cases sized with
  | zero =>
      cases sized' with
      | zero => rfl
      | @finite _ _ exponent positive => exact absurd same (size_pos exponent positive).ne
  | @finite _ _ exponent positive canonical =>
      cases sized' with
      | zero => exact absurd same (size_pos exponent positive).ne'
      | finite canonical' =>
          obtain ⟨rfl, rfl⟩ := canonical.eq_of_size_eq canonical' same
          rfl

theorem eq_of_hasSize (sized : HasSize x.toModel.unpack sign size)
    (sized' : HasSize y.toModel.unpack sign size)
    : x = y :=
  eq_of_unpack (sized.unique sized' rfl)

theorem HasSize.abs (sized : HasSize x.toModel.unpack sign size)
    : HasSize x.abs.toModel.unpack .positive size := by
  change HasSize (Float.Model.pack x.toModel.unpack.abs).unpack .positive size
  generalize x.toModel.unpack = f at sized
  have cut : HasSize f.abs .positive size := by
    cases sized with
    | zero => exact .zero .positive
    | finite canonical => exact .finite canonical
  rwa [cut.unpack_pack]

theorem HasSize.neg (sized : HasSize x.toModel.unpack sign size)
    : HasSize (-x).toModel.unpack (-sign) size := by
  rw [unpack_neg (isNaN_of_isFinite sized.standsFor.finite)]
  generalize x.toModel.unpack = f at sized
  cases sized with
  | zero => exact .zero _
  | finite canonical => exact .finite canonical

theorem HasSize.withSign (sized : HasSize x.toModel.unpack .positive size) (sign : Sign)
    : HasSize (withSign (sign == .negative) x).toModel.unpack sign size := by
  cases sign with
  | positive => exact sized
  | negative => exact sized.neg

end

-----------------------------------------------------------------------------------------
-- Rounding
-----------------------------------------------------------------------------------------

/-- A size is rounded to that of a double. -/
def RoundsToSize (exact rounded : ℚ) : Prop :=
  ∃ units unit, RoundsIn 52 (-1074) exact units unit ∧ rounded = units * 2 ^ unit

section
variable {exact exact' rounded rounded' : ℚ}

theorem RoundsToSize.mono (rounds : RoundsToSize exact rounded)
    (rounds' : RoundsToSize exact' rounded') (below : exact ≤ exact')
    : rounded ≤ rounded' := by
  obtain ⟨units, unit, rounds, rfl⟩ := rounds
  obtain ⟨units', unit', rounds', rfl⟩ := rounds'
  exact rounds.mono rounds' below

theorem RoundsToSize.unique (rounds : RoundsToSize exact rounded)
    (rounds' : RoundsToSize exact rounded')
    : rounded = rounded' :=
  le_antisymm (rounds.mono rounds' le_rfl) (rounds'.mono rounds le_rfl)

/-- The size of a double is rounded to itself. -/
theorem HasSize.rounds {f : UnpackedFloat} {sign : Sign} {size : ℚ} (sized : HasSize f sign size)
    : RoundsToSize size size := by
  cases sized with
  | zero => exact ⟨0, -1074, roundsIn_zero 52 (-1074), by simp⟩
  | finite canonical => exact ⟨_, _, canonical.roundsIn, rfl⟩

theorem IsDouble.rounds (double : IsDouble exact) (nonneg : 0 ≤ exact)
    : RoundsToSize exact exact := by
  obtain ⟨x, stands⟩ := double
  obtain ⟨sign, size, sized⟩ := exists_hasSize stands.finite
  have same : |signed sign size| = size := abs_signed sized.nonneg
  rw [← sized.standsFor.same, stands.same, abs_of_nonneg nonneg] at same
  exact same ▸ sized.rounds

end

/-- Numbers in the range of the doubles are rounded to one of them: from the least one up to half a
place behind the largest.
-/
theorem exists_rounded {sign : Sign} {mantissa : Nat} {exponent : Int} (some : 0 < mantissa)
    (least : (2 : ℚ) ^ (-1074 : Int) ≤ mantissa * 2 ^ exponent)
    (inside : (mantissa * 2 ^ exponent : ℚ) < 2 ^ (1024 : Int) - 2 ^ (970 : Int))
    : ∃ size,
        HasSize (UnpackedFloat.round Format.binary64 sign mantissa exponent) sign size
        ∧ RoundsToSize (mantissa * 2 ^ exponent) size := by
  obtain ⟨units, unit, rounds⟩
      : ∃ units unit, RoundsIn 52 (-1074) (mantissa * 2 ^ exponent) units unit :=
    ⟨_, _, roundsIn_unitsNearestEven some 52 (-1074) exponent⟩
  have counted : 0 < units := by
    by_cases coarse : unit = -1074
    · subst coarse
      refine rounds.nearest.ge_of_ge ?_
      rw [le_div_iff₀ (by positivity)]
      simpa using least
    · exact lt_of_lt_of_le (by decide) (rounds.le_units coarse)
  obtain ⟨mantissa', place, filled, positive, rounds', same⟩ := rounds.exists_roundsTo counted
  have most : place ≤ 971 := by
    by_contra large
    exact absurd inside (not_lt.mpr (rounds'.beyond_le filled (by omega)))
  have canonical : IsCanonical mantissa' place := ⟨filled.1, filled.2.1, most, filled.2.2⟩
  refine ⟨mantissa' * 2 ^ place, ?_, ⟨units, unit, rounds, same⟩⟩
  obtain ⟨shift, rounded, -, enough⟩ := exists_round_eq sign exponent some
  have located : Locates (mantissa <<< shift : Nat) (mantissa <<< shift) .exact := rfl
  have place' : (2 : ℚ) ^ place ≠ 0 := by positivity
  rw [rounded, rounds'.roundWithAccuracy filled positive located enough
    ((size_shiftLeft ..).trans (div_mul_cancel₀ _ place').symm)]
  exact .finite canonical

-----------------------------------------------------------------------------------------
-- Sums
-----------------------------------------------------------------------------------------

section
variable {x y : Float} {f g : UnpackedFloat} {left right : ℚ}

/-- The size of a double is at least the least one of them, if it is not zero. -/
theorem IsCanonical.least_le {mantissa : Nat} {exponent : Int}
    (canonical : IsCanonical mantissa exponent) (some : 0 < mantissa)
    : (2 : ℚ) ^ (-1074 : Int) ≤ mantissa * 2 ^ exponent := by
  have one : (1 : ℚ) ≤ mantissa := by exact_mod_cast some
  calc (2 : ℚ) ^ (-1074 : Int) ≤ 2 ^ exponent := zpow_le_zpow_right₀ (by norm_num) canonical.2.1
    _ ≤ mantissa * 2 ^ exponent := le_mul_of_one_le_left (by positivity) one

/-- Two positive forms are added in units of the finer place, and the total is rounded. -/
theorem exists_add_eq {mantissa mantissa' : Nat} (exponent exponent' : Int)
    (positive : 0 < mantissa) (positive' : 0 < mantissa')
    : ∃ total : Nat,
        UnpackedFloat.add Format.binary64 (.finite .positive mantissa exponent positive)
            (.finite .positive mantissa' exponent' positive')
          = UnpackedFloat.round Format.binary64 .positive total (min exponent exponent')
        ∧ 0 < total
        ∧ (total * 2 ^ min exponent exponent' : ℚ)
          = mantissa * 2 ^ exponent + mantissa' * 2 ^ exponent' := by
  have aligned := signed_aligned .positive mantissa (min_le_left exponent exponent')
  have aligned' := signed_aligned .positive mantissa' (min_le_right exponent exponent')
  have some : 0 < mantissa <<< (exponent - min exponent exponent').toNat := by
    rw [Nat.shiftLeft_eq]
    positivity
  simp only [signed, Sign.apply] at aligned aligned'
  simp only [UnpackedFloat.add, decreaseExponent, Sign.apply, UnpackedFloat.normalize]
  generalize mantissa <<< (exponent - min exponent exponent').toNat = first at aligned some ⊢
  generalize mantissa' <<< (exponent' - min exponent exponent').toNat = second at aligned' ⊢
  have above : compare ((first : Int) + second) 0 = .gt := compare_gt_iff_gt.mpr (by omega)
  refine ⟨first + second, ?_, by omega, ?_⟩
  · rw [above]
    rfl
  · rw [aligned, aligned']
    push_cast
    ring

/-- The sum of doubles without a minus is rounded once, if it is in the range of the doubles. -/
theorem HasSize.add (sized : HasSize f .positive left) (sized' : HasSize g .positive right)
    (inside : left + right < 2 ^ (1024 : Int) - 2 ^ (970 : Int))
    : ∃ size,
        HasSize (UnpackedFloat.add Format.binary64 f g) .positive size
        ∧ RoundsToSize (left + right) size := by
  cases sized with
  | zero =>
      rw [zero_add]
      cases sized' with
      | zero => exact ⟨0, .zero .positive, (HasSize.zero .positive).rounds⟩
      | finite canonical => exact ⟨_, .finite canonical, _, _, canonical.roundsIn, rfl⟩
  | @finite _ mantissa exponent positive canonical =>
      cases sized' with
      | zero =>
          rw [add_zero]
          exact ⟨_, .finite canonical, _, _, canonical.roundsIn, rfl⟩
      | @finite _ mantissa' exponent' positive' canonical' =>
          have least := (canonical.least_le positive).trans
            (le_add_of_nonneg_right (size_pos exponent' positive').le)
          obtain ⟨total, added, some, same⟩ := exists_add_eq exponent exponent' positive positive'
          rw [← same] at inside least ⊢
          rw [added]
          exact exists_rounded some least inside

theorem HasSize.add_float (sized : HasSize x.toModel.unpack .positive left)
    (sized' : HasSize y.toModel.unpack .positive right)
    (inside : left + right < 2 ^ (1024 : Int) - 2 ^ (970 : Int))
    : ∃ size, HasSize (x + y).toModel.unpack .positive size ∧ RoundsToSize (left + right) size := by
  obtain ⟨size, added, rounds⟩ := sized.add sized' inside
  refine ⟨size, ?_, rounds⟩
  change HasSize (Float.Model.pack _).unpack .positive size
  rwa [added.unpack_pack]

end

end Wavetable.Number
