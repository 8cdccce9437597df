import Wavetable.Proofs.Number.Nearest
import Wavetable.Proofs.Number.Ratio

/-!
The shortest decimal of a double rounds to it: the search accepts no other decimal, and it ends
with seventeen digits at the latest.
-/

namespace Wavetable.Number

section
variable {mantissa digits : Nat} {exponent unit : Int}

theorem quarters_lt_iff {quarters : Nat}
    : ((Ratio.ofBinary quarters (exponent - 2)).inUnits unit).num
          < digits * ((Ratio.ofBinary quarters (exponent - 2)).inUnits unit).den
      ↔ (quarters : ℚ) / 4 < digits * 10 ^ unit / 2 ^ exponent := by
  rw [Ratio.lt_mul_den_iff (Ratio.den_inUnits_pos (Ratio.den_ofBinary_pos _ _) _),
    Ratio.value_inUnits, Ratio.value_ofBinary, zpow_sub₀ two_ne_zero,
    div_lt_iff₀ (by positivity), lt_div_iff₀ (by positivity)]
  norm_num
  constructor <;> intro h <;> linarith

theorem lt_quarters_iff {quarters : Nat}
    : digits * ((Ratio.ofBinary quarters (exponent - 2)).inUnits unit).den
          < ((Ratio.ofBinary quarters (exponent - 2)).inUnits unit).num
      ↔ (digits * 10 ^ unit / 2 ^ exponent : ℚ) < (quarters : ℚ) / 4 := by
  rw [Ratio.mul_den_lt_iff (Ratio.den_inUnits_pos (Ratio.den_ofBinary_pos _ _) _),
    Ratio.value_inUnits, Ratio.value_ofBinary, zpow_sub₀ two_ne_zero,
    lt_div_iff₀ (by positivity), div_lt_iff₀ (by positivity)]
  norm_num
  constructor <;> intro h <;> linarith

/-- The part of a unit by which an interval goes down, in quarters. -/
def quartersBelow (mantissa : Nat) (exponent : Int) : Nat :=
  if mantissa = 2 ^ 52 && Double.minExponent < exponent then 1 else 2

/-- The interval around a form, told by the numbers in it. -/
theorem holds_iff (positive : 0 < mantissa)
    : (RoundingInterval.around mantissa exponent).holds digits unit = true
      ↔ if mantissa % 2 = 0 then
          (mantissa : ℚ) - quartersBelow mantissa exponent / 4 ≤ digits * 10 ^ unit / 2 ^ exponent
          ∧ (digits * 10 ^ unit / 2 ^ exponent : ℚ) ≤ mantissa + 1 / 2
        else
          (mantissa : ℚ) - quartersBelow mantissa exponent / 4 < digits * 10 ^ unit / 2 ^ exponent
          ∧ (digits * 10 ^ unit / 2 ^ exponent : ℚ) < mantissa + 1 / 2 := by
  have within : quartersBelow mantissa exponent ≤ 4 * mantissa := by
    unfold quartersBelow
    split <;> omega
  have lower : ((4 * mantissa - quartersBelow mantissa exponent : Nat) : ℚ) / 4
      = mantissa - quartersBelow mantissa exponent / 4 := by
    rw [Nat.cast_sub within]
    push_cast
    ring
  have upper : ((4 * mantissa + 2 : Nat) : ℚ) / 4 = mantissa + 1 / 2 := by
    push_cast
    ring
  have interval : RoundingInterval.around mantissa exponent
      = ⟨4 * mantissa - quartersBelow mantissa exponent, 4 * mantissa + 2, mantissa % 2 = 0,
        exponent - 2⟩ := rfl
  rw [interval, RoundingInterval.holds, ← lower, ← upper]
  simp only [decide_eq_true_eq, apply_ite (· = true), Bool.and_eq_true]
  rw [← Nat.not_lt, ← Nat.not_lt, quarters_lt_iff, lt_quarters_iff, lt_quarters_iff,
    quarters_lt_iff, not_lt, not_lt]

theorem quartersBelow_le (mantissa : Nat) (exponent : Int)
    : (quartersBelow mantissa exponent : ℚ) ≤ 2 := by
  unfold quartersBelow
  split <;> norm_num

theorem quartersBelow_power (exponent : Int) (above : -1074 < exponent)
    : quartersBelow (2 ^ 52) exponent = 1 := by
  simp [quartersBelow, Double.minExponent, above]

/-- What lies in the interval around a form rounds to it. -/
theorem roundsTo_of_holds (positive : 0 < mantissa)
    (inside : (RoundingInterval.around mantissa exponent).holds digits unit = true)
    : RoundsTo (digits * 10 ^ unit / 2 ^ exponent) mantissa exponent := by
  have down := quartersBelow_le mantissa exponent
  rw [holds_iff positive] at inside
  split at inside
  next even =>
    refine ⟨⟨by linarith [inside.1], inside.2, fun odd => by omega⟩, ?_⟩
    rintro rfl above
    rw [quartersBelow_power exponent above] at inside
    exact_mod_cast inside.1
  next odd =>
    obtain ⟨low, high⟩ := inside
    refine ⟨⟨by linarith, high.le, fun _ => ⟨by linarith, high⟩⟩, ?_⟩
    rintro rfl
    exact absurd rfl odd

/-- What lies strictly between the bounds lies in the interval. -/
theorem holds_of_lt (positive : 0 < mantissa)
    (behind : (mantissa : ℚ) - quartersBelow mantissa exponent / 4
      < digits * 10 ^ unit / 2 ^ exponent)
    (before : (digits * 10 ^ unit / 2 ^ exponent : ℚ) < mantissa + 1 / 2)
    : (RoundingInterval.around mantissa exponent).holds digits unit = true := by
  rw [holds_iff positive]
  split
  · exact ⟨behind.le, before.le⟩
  · exact ⟨behind, before⟩

theorem holds_of_nearestInUnits? (found : nearestInUnits? mantissa exponent unit = some digits)
    : (RoundingInterval.around mantissa exponent).holds digits unit = true := by
  unfold nearestInUnits? at found
  dsimp only at found
  grind

/-- A decimal is found in units that are small against the last place: one of the two neighbours
of the form lies at most half of such a unit from it.
-/
theorem exists_nearestInUnits? (positive : 0 < mantissa)
    (fine : (10 ^ unit / 2 ^ exponent : ℚ) * 2 < quartersBelow mantissa exponent)
    : ∃ digits, nearestInUnits? mantissa exponent unit = some digits := by
  have proper := Ratio.den_inUnits_pos (Ratio.den_ofBinary_pos mantissa exponent) unit
  have value := Ratio.value_inUnits (Ratio.ofBinary mantissa exponent) unit
  rw [Ratio.value_ofBinary] at value
  unfold nearestInUnits?
  dsimp only
  generalize (Ratio.ofBinary mantissa exponent).inUnits unit = r at proper value ⊢
  -- the form lies between two neighbours, counted in units
  generalize found : r.num / r.den = low
  have behind : ¬ r.num < low * r.den := by
    rw [← found]
    exact Nat.not_lt.mpr (Nat.div_mul_le_self _ _)
  have before : r.num < (low + 1) * r.den := by
    rw [← found]
    exact Nat.lt_mul_of_div_lt (Nat.lt_succ_self _) proper
  rw [Ratio.lt_mul_den_iff proper, value, div_lt_iff₀ (by positivity)] at behind before
  have down := quartersBelow_le mantissa exponent
  have step : (0 : ℚ) < 10 ^ unit / 2 ^ exponent := by positivity
  have scaled : ∀ n : Nat, (n * 10 ^ unit / 2 ^ exponent : ℚ) = n * (10 ^ unit / 2 ^ exponent) :=
    fun n => mul_div_assoc _ _ _
  have behind : (low : ℚ) * (10 ^ unit / 2 ^ exponent) ≤ mantissa := by
    rw [← scaled, div_le_iff₀ (by positivity)]
    exact not_lt.mp behind
  have before : (mantissa : ℚ) < (low + 1 : Nat) * (10 ^ unit / 2 ^ exponent) := by
    rw [← scaled, lt_div_iff₀ (by positivity)]
    exact before
  -- the nearer one is at most half a unit away
  have near : (RoundingInterval.around mantissa exponent).holds low unit = true
      ∨ (RoundingInterval.around mantissa exponent).holds (low + 1) unit = true := by
    rcases le_or_gt ((mantissa : ℚ) - low * (10 ^ unit / 2 ^ exponent))
      (10 ^ unit / 2 ^ exponent / 2) with lower | upper
    · refine .inl (holds_of_lt positive ?_ ?_)
      all_goals
        rw [scaled]
        linarith
    · push_cast at before
      refine .inr (holds_of_lt positive ?_ ?_)
      all_goals
        rw [scaled]
        push_cast
        linarith
  split
  · split <;> exact ⟨_, rfl⟩
  split
  · exact ⟨_, rfl⟩
  split
  · exact ⟨_, rfl⟩
  · rcases near with held | held <;> contradiction

/-- With seventeen digits the units are small enough. -/
theorem fine_of_magnitude (canonical : IsCanonical mantissa exponent)
    (long : (10 : ℚ) ^ (unit + 16) ≤ mantissa * 2 ^ exponent)
    : (10 ^ unit / 2 ^ exponent : ℚ) * 2 < quartersBelow mantissa exponent := by
  have short : (mantissa : ℚ) < 2 ^ 53 := by exact_mod_cast canonical.1
  have coarse : (10 ^ unit / 2 ^ exponent : ℚ) * 10 ^ 16 ≤ mantissa := by
    rw [zpow_add₀ (by norm_num)] at long
    rw [div_mul_eq_mul_div, div_le_iff₀ (by positivity)]
    exact long
  unfold quartersBelow
  split
  next power =>
    -- below a power of two there is half the room, but its mantissa is the least one
    simp only [Bool.and_eq_true, decide_eq_true_eq] at power
    rw [power.1] at coarse
    norm_num at coarse ⊢
    linarith
  next =>
    norm_num at coarse ⊢
    linarith

/-- The value of a decimal. -/
def Decimal.value (decimal : Decimal) : ℚ :=
  decimal.digits * 10 ^ decimal.exponent

theorem Decimal.value_ofUnits (digits places : Nat) (unit : Int)
    : (Decimal.ofUnits digits places unit).value = digits * 10 ^ unit := by
  unfold Decimal.ofUnits Decimal.value
  split
  next carry =>
    rw [carry, zpow_add₀ (by norm_num), zpow_natCast]
    push_cast
    ring
  next => rfl

/-- The search yields a decimal that rounds to the form, by induction on the tries that are left
until seventeen digits.
-/
theorem firstReadBack_rounds (canonical : IsCanonical mantissa exponent) (positive : 0 < mantissa)
    {magnitude : Int} (large : (10 : ℚ) ^ (magnitude - 1) ≤ mantissa * 2 ^ exponent)
    {places tries : Nat} (left : places + tries = 17)
    : RoundsTo ((firstReadBack mantissa exponent magnitude places (tries + 1)).value / 2 ^ exponent)
        mantissa exponent := by
  induction tries generalizing places with
  | zero =>
      obtain rfl : places = 17 := left
      -- the last try has seventeen digits, and does not fail
      have long : (10 : ℚ) ^ (magnitude - (17 : Nat) + 16) ≤ mantissa * 2 ^ exponent := by
        convert large using 2
        push_cast
        ring
      obtain ⟨digits, found⟩ :=
        exists_nearestInUnits? positive (fine_of_magnitude canonical long)
      rw [firstReadBack, found, Decimal.value_ofUnits]
      exact roundsTo_of_holds positive (holds_of_nearestInUnits? found)
  | succ tries ih =>
      rw [firstReadBack]
      split
      next digits found =>
        rw [Decimal.value_ofUnits]
        exact roundsTo_of_holds positive (holds_of_nearestInUnits? found)
      next => exact ih (by omega)

/-- The shortest decimal rounds to the form. -/
theorem shortest_rounds (canonical : IsCanonical mantissa exponent) (positive : 0 < mantissa)
    : RoundsTo ((shortest mantissa exponent).value / 2 ^ exponent) mantissa exponent := by
  have some : 0 < (Ratio.ofBinary mantissa exponent).num := by
    unfold Ratio.ofBinary
    split <;> positivity
  have large := (Ratio.magnitude_bounds some (Ratio.den_ofBinary_pos mantissa exponent)).1
  rw [Ratio.value_ofBinary] at large
  unfold shortest
  rw [if_neg positive.ne']
  exact firstReadBack_rounds canonical positive large rfl

end

end Wavetable.Number
