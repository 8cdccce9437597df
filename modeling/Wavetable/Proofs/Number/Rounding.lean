import Mathlib.Data.Nat.Log
import Wavetable.Number.Rounding
import Wavetable.Proofs.Number.Nearest
import Wavetable.Proofs.Number.Order

/-!
Rounding to a number of places keeps the order of sizes, whether the places are those of the doubles
or of the single-precision numbers.
-/

namespace Wavetable.Number

section
variable {units units' : ℚ} {whole whole' : Nat}

/-- The nearest whole numbers are in the order of what is rounded. If they were not, both would be
rounded in the middle between two, and one of the two is odd.
-/
theorem IsNearest.mono (nearest : IsNearest units whole) (nearest' : IsNearest units' whole')
    (below : units ≤ units')
    : whole ≤ whole' := by
  by_contra less
  obtain ⟨lower, -, strict⟩ := nearest
  obtain ⟨-, upper, strict'⟩ := nearest'
  have apart : (whole' : ℚ) + 1 ≤ whole := by exact_mod_cast Nat.lt_of_not_le less
  have next : (whole : ℚ) ≤ whole' + 1 := by linarith
  have next : whole = whole' + 1 := by
    have next : whole ≤ whole' + 1 := by exact_mod_cast next
    omega
  subst next
  push_cast at lower
  by_cases odd : whole' % 2 = 1
  · have := (strict' odd).2
    linarith
  · have := (strict (by omega)).1
    push_cast at this
    linarith

theorem IsNearest.le_of_le (nearest : IsNearest units whole) (below : units ≤ whole')
    : whole ≤ whole' :=
  nearest.mono (isNearest_self whole') below

theorem IsNearest.ge_of_ge (nearest : IsNearest units whole) (above : whole' ≤ units)
    : whole' ≤ whole :=
  (isNearest_self whole').mono nearest above

end

/-- A size is rounded to a whole number of units. It has one bit more than the given width in them,
unless they are the least ones there are.
-/
structure RoundsIn (width : Nat) (least : Int) (size : ℚ) (units : Nat) (unit : Int) : Prop where
  nearest : IsNearest (size / 2 ^ unit) units
  inside : least ≤ unit
  full : 2 ^ (width + unit) ≤ size ∨ unit = least
  short : size < 2 ^ (width + unit + 1)

section
variable {width units units' : Nat} {least unit unit' : Int} {size size' : ℚ}

theorem RoundsIn.units_le (rounds : RoundsIn width least size units unit)
    : units ≤ 2 ^ (width + 1) := by
  refine rounds.nearest.le_of_le ?_
  have place : (0 : ℚ) < 2 ^ unit := by positivity
  rw [div_le_iff₀ place]
  refine rounds.short.le.trans (le_of_eq ?_)
  push_cast
  rw [← zpow_natCast, ← zpow_add₀ two_ne_zero]
  congr 1
  push_cast
  ring

theorem RoundsIn.le_units (rounds : RoundsIn width least size units unit) (coarse : unit ≠ least)
    : 2 ^ width ≤ units := by
  refine rounds.nearest.ge_of_ge ?_
  have place : (0 : ℚ) < 2 ^ unit := by positivity
  rw [le_div_iff₀ place]
  refine le_trans (le_of_eq ?_) (rounds.full.resolve_right coarse)
  push_cast
  rw [← zpow_natCast, ← zpow_add₀ two_ne_zero]

/-- Rounding keeps the order. Of two places, the sizes in the coarser one are at least as large as
the least power of two that fills the width there, to which all sizes of the finer one are rounded
at most.
-/
theorem RoundsIn.mono (rounds : RoundsIn width least size units unit)
    (rounds' : RoundsIn width least size' units' unit') (below : size ≤ size')
    : (units * 2 ^ unit : ℚ) ≤ units' * 2 ^ unit' := by
  rcases lt_trichotomy unit unit' with finer | rfl | coarser
  · have most : (units : ℚ) ≤ 2 ^ (width + 1 : Int) := by exact_mod_cast rounds.units_le
    have least' : (2 : ℚ) ^ (width : Int) ≤ units' := by
      exact_mod_cast rounds'.le_units (by have := rounds.inside; omega)
    calc (units * 2 ^ unit : ℚ) ≤ 2 ^ (width + 1 : Int) * 2 ^ unit :=
          mul_le_mul_of_nonneg_right most (by positivity)
      _ = 2 ^ (width + 1 + unit) := (zpow_add₀ two_ne_zero _ _).symm
      _ ≤ 2 ^ (width + unit') := zpow_le_zpow_right₀ (by norm_num) (by omega)
      _ = 2 ^ (width : Int) * 2 ^ unit' := zpow_add₀ two_ne_zero _ _
      _ ≤ units' * 2 ^ unit' := mul_le_mul_of_nonneg_right least' (by positivity)
  · have place : (0 : ℚ) < 2 ^ unit := by positivity
    have counted := rounds.nearest.mono rounds'.nearest (div_le_div_of_nonneg_right below place.le)
    exact mul_le_mul_of_nonneg_right (by exact_mod_cast counted) place.le
  · have full := rounds.full.resolve_right (by have := rounds'.inside; omega)
    have lower : (2 : ℚ) ^ (width + unit' + 1) ≤ 2 ^ (width + unit) :=
      zpow_le_zpow_right₀ (by norm_num) (by omega)
    exact absurd (full.trans below) (not_le.mpr (rounds'.short.trans_le lower))

end

section
variable (whole : Nat) {part : ℚ}

theorem isNearest_of_lt_half (positive : 0 ≤ part) (less : part < 1 / 2)
    : IsNearest (whole + part) whole :=
  ⟨by linarith, by linarith, fun _ => ⟨by linarith, by linarith⟩⟩

/-- Of the two nearest numbers, the even one is taken. -/
theorem isNearest_half : IsNearest (whole + 1 / 2) (whole + whole % 2) := by
  rcases Nat.mod_two_eq_zero_or_one whole with even | odd
  · rw [even, add_zero]
    exact ⟨by linarith, by linarith, fun odd => by omega⟩
  · have next : ((whole + 1 : Nat) : ℚ) = whole + 1 := Nat.cast_succ whole
    rw [odd]
    exact ⟨by linarith, by linarith, fun odd' => by omega⟩

theorem isNearest_of_half_lt (more : 1 / 2 < part) (short : part < 1)
    : IsNearest (whole + part) (whole + 1) := by
  have next : ((whole + 1 : Nat) : ℚ) = whole + 1 := Nat.cast_succ whole
  exact ⟨by linarith, by linarith, fun _ => ⟨by linarith, by linarith⟩⟩

end

/-- Division to the nearest whole number, from the remainder. -/
theorem isNearest_divNearestEven (num : Nat) {den : Nat} (some : 0 < den)
    : IsNearest (num / den : ℚ) (divNearestEven num den) := by
  have short : num % den < den := Nat.mod_lt num some
  have whole : (den : ℚ) * (num / den : Nat) + (num % den : Nat) = num := by
    exact_mod_cast Nat.div_add_mod num den
  have positive : (0 : ℚ) < den := by exact_mod_cast some
  have split : (num : ℚ) / den = (num / den : Nat) + (num % den : Nat) / den := by
    rw [← whole]
    field_simp
  rw [split]
  unfold divNearestEven
  dsimp only
  split
  next less =>
    have less : (2 * (num % den : Nat) : ℚ) < den := by exact_mod_cast less
    refine isNearest_of_lt_half _ (by positivity) ?_
    rw [div_lt_iff₀ positive]
    linarith
  next notLess =>
    split
    next middle =>
      have middle : (2 * (num % den : Nat) : ℚ) = den := by exact_mod_cast middle
      have half : ((num % den : Nat) : ℚ) / den = 1 / 2 := by
        rw [div_eq_iff positive.ne']
        linarith
      rw [half]
      exact isNearest_half _
    next notMiddle =>
      have more : den < 2 * (num % den) := by omega
      have more : (den : ℚ) < 2 * (num % den : Nat) := by exact_mod_cast more
      refine isNearest_of_half_lt _ ?_ ?_
      · rw [lt_div_iff₀ positive]
        linarith
      · rw [div_lt_one₀ positive]
        exact_mod_cast short

/-- A size in units of a place, to the nearest. -/
theorem isNearest_unitsNearestEven (mantissa : Nat) (exponent unit : Int)
    : IsNearest (mantissa * 2 ^ exponent / 2 ^ unit) (unitsNearestEven mantissa exponent unit) := by
  unfold unitsNearestEven
  split
  next exact =>
    obtain ⟨shift, rfl⟩ : ∃ shift : Nat, exponent = unit + shift :=
      ⟨(exponent - unit).toNat, by omega⟩
    have far : (unit + shift - unit).toNat = shift := by omega
    have same : (mantissa * 2 ^ (unit + shift) / 2 ^ unit : ℚ) = (mantissa * 2 ^ shift : Nat) := by
      rw [zpow_add₀ two_ne_zero, zpow_natCast]
      push_cast
      field_simp
    rw [same, far]
    exact isNearest_self _
  next inexact =>
    obtain ⟨shift, rfl⟩ : ∃ shift : Nat, unit = exponent + shift :=
      ⟨(unit - exponent).toNat, by omega⟩
    have far : (exponent + shift - exponent).toNat = shift := by omega
    have same : (mantissa * 2 ^ exponent / 2 ^ (exponent + shift) : ℚ)
        = mantissa / (2 ^ shift : Nat) := by
      rw [zpow_add₀ two_ne_zero, zpow_natCast]
      push_cast
      field_simp
    rw [same, far]
    exact isNearest_divNearestEven mantissa (by positivity)

/-- Every size is rounded in units of the place that its leading bit asks for. -/
theorem roundsIn_unitsNearestEven {mantissa : Nat} (some : 0 < mantissa) (width : Nat)
    (least exponent : Int)
    : RoundsIn width least (mantissa * 2 ^ exponent)
        (unitsNearestEven mantissa exponent (max (exponent + mantissa.log2 - width) least))
        (max (exponent + mantissa.log2 - width) least) := by
  have lower : (2 : ℚ) ^ (mantissa.log2 : Int) ≤ mantissa := by
    exact_mod_cast Nat.log2_self_le some.ne'
  have upper : (mantissa : ℚ) < 2 ^ (mantissa.log2 + 1 : Int) := by
    exact_mod_cast Nat.lt_log2_self
  have unit : (0 : ℚ) < 2 ^ exponent := by positivity
  refine ⟨isNearest_unitsNearestEven _ _ _, le_max_right _ _, ?_, ?_⟩
  · rcases le_total (exponent + mantissa.log2 - width) least with small | large
    · exact .inr (max_eq_right small)
    · left
      rw [max_eq_left large]
      calc (2 : ℚ) ^ ((width : Int) + (exponent + mantissa.log2 - width))
          = 2 ^ (mantissa.log2 : Int) * 2 ^ exponent := by
            rw [← zpow_add₀ two_ne_zero]
            congr 1
            ring
        _ ≤ mantissa * 2 ^ exponent := mul_le_mul_of_nonneg_right lower unit.le
  · calc (mantissa * 2 ^ exponent : ℚ) < 2 ^ (mantissa.log2 + 1 : Int) * 2 ^ exponent :=
          mul_lt_mul_of_pos_right upper unit
      _ = 2 ^ (mantissa.log2 + 1 + exponent : Int) := (zpow_add₀ two_ne_zero _ _).symm
      _ ≤ 2 ^ (width + max (exponent + mantissa.log2 - width) least + 1) :=
          zpow_le_zpow_right₀ (by norm_num) (by omega)

/-- Nothing is rounded to nothing. -/
theorem roundsIn_zero (width : Nat) (least : Int) : RoundsIn width least 0 0 least := by
  refine ⟨?_, le_rfl, .inr rfl, by positivity⟩
  rw [zero_div]
  exact_mod_cast isNearest_self 0

/-- A number is rounded by its size, of which the rounded one may be cut further. -/
def RoundsSigned (width : Nat) (least : Int) (cut : ℚ → ℚ) (exact rounded : ℚ) : Prop :=
  ∃ sign size units unit,
    exact = signed sign size
    ∧ 0 ≤ size
    ∧ RoundsIn width least size units unit
    ∧ rounded = signed sign (cut (units * 2 ^ unit))

/-- Rounding keeps the order of all numbers. On both sides of zero the sizes are in order or in the
reverse one.
-/
theorem RoundsSigned.mono {width : Nat} {least : Int} {cut : ℚ → ℚ}
    {exact exact' rounded rounded' : ℚ} (ascends : Monotone cut) (nothing : cut 0 = 0)
    (rounds : RoundsSigned width least cut exact rounded)
    (rounds' : RoundsSigned width least cut exact' rounded') (below : exact ≤ exact')
    : rounded ≤ rounded' := by
  obtain ⟨sign, size, units, unit, rfl, positive, rounds, rfl⟩ := rounds
  obtain ⟨sign', size', units', unit', rfl, positive', rounds', rfl⟩ := rounds'
  have some : 0 ≤ cut (units * 2 ^ unit) := nothing.symm.le.trans (ascends (by positivity))
  have some' : 0 ≤ cut (units' * 2 ^ unit') := nothing.symm.le.trans (ascends (by positivity))
  cases sign <;> cases sign' <;> simp only [signed] at below ⊢
  · exact neg_le_neg (ascends (rounds'.mono rounds (neg_le_neg_iff.mp below)))
  · linarith
  · -- a number that is neither below nor above zero is zero
    have zero := rounds.mono (roundsIn_zero width least) (by linarith)
    have zero' := rounds'.mono (roundsIn_zero width least) (by linarith)
    rw [Nat.cast_zero, zero_mul] at zero zero'
    have := (ascends zero).trans nothing.le
    have := (ascends zero').trans nothing.le
    linarith
  · exact ascends (rounds.mono rounds' below)

end Wavetable.Number
