import Mathlib.Algebra.Order.Round
import Mathlib.Data.Rat.Floor
import Wavetable.Formula.Builtin
import Wavetable.Proofs.Number.Sums

/-!
Rounding to the nearest whole number, a half away from zero. Adding a half rounds as well, so the
size just below a half and the odd sizes of 53 bits go one too far; all other doubles go to the
nearest whole number.
-/

namespace Wavetable.Number

open Float.Model (UnpackedFloat)
open Float.Model.UnpackedFloat (Sign)

-----------------------------------------------------------------------------------------
-- The nearest whole number
-----------------------------------------------------------------------------------------

/-- No whole number is nearer to the number, and no other one that is as near is farther from zero.
-/
structure IsHalfAway (number : ℚ) (whole : Int) : Prop where
  nearest : ∀ other : Int, |number - whole| ≤ |number - other|
  away : ∀ other : Int, |number - other| ≤ |number - whole| → |other| ≤ |whole|

theorem IsHalfAway.neg {number : ℚ} {whole : Int} (rounds : IsHalfAway number whole)
    : IsHalfAway (-number) (-whole) := by
  have mirrored : ∀ other : Int, |-number - other| = |number - (-other : Int)| := by
    intro other
    rw [← abs_neg]
    congr 1
    push_cast
    ring
  constructor
  · intro other
    rw [mirrored, mirrored, neg_neg]
    exact rounds.nearest (-other)
  · intro other near
    rw [mirrored, mirrored, neg_neg] at near
    rw [abs_neg, ← abs_neg other]
    exact rounds.away (-other) near

theorem round_nonneg {size : ℚ} (nonneg : 0 ≤ size) : 0 ≤ round size := by
  rw [round_eq]
  exact Int.floor_nonneg.mpr (by linarith)

/-- The floor of a half more than a size is the nearest whole number, and a half goes up. -/
theorem isHalfAway_round {size : ℚ} (nonneg : 0 ≤ size) : IsHalfAway size (round size) := by
  refine ⟨round_le size, fun other near => ?_⟩
  have positive := round_nonneg nonneg
  have above := sub_half_lt_round size
  obtain ⟨lower, upper⟩ := abs_le.mp (near.trans (abs_sub_round size))
  have most : other < round size + 1 := by
    have : (other : ℚ) < round size + 1 := by linarith
    exact_mod_cast this
  have least : -1 < other := by
    have : (-1 : ℚ) < other := by linarith
    exact_mod_cast this
  rw [abs_of_nonneg positive, abs_of_nonneg (by omega)]
  omega

/-- The nearest whole number to a size and a sign. -/
theorem isHalfAway_signed {size : ℚ} (sign : Sign) (nonneg : 0 ≤ size)
    : IsHalfAway (signed sign size) (sign.apply (round size)) := by
  cases sign with
  | positive => exact isHalfAway_round nonneg
  | negative => exact (isHalfAway_round nonneg).neg

/-- There is only one: two of them are equally far from the number and from zero, and the number
does not lie in the middle between opposite ones but for zero.
-/
theorem IsHalfAway.unique {number : ℚ} {whole other : Int} (rounds : IsHalfAway number whole)
    (rounds' : IsHalfAway number other)
    : whole = other := by
  have same : |whole| = |other| :=
    le_antisymm (rounds'.away _ (rounds.nearest _)) (rounds.away _ (rounds'.nearest _))
  have near : |number - whole| = |number - other| :=
    le_antisymm (rounds.nearest _) (rounds'.nearest _)
  rcases abs_eq_abs.mp same with same | rfl
  · exact same
  · have atZero := rounds.nearest 0
    push_cast at near atZero
    rcases abs_eq_abs.mp near with same | opposite
    · have none : (other : ℚ) = 0 := by linarith
      have none : other = 0 := by exact_mod_cast none
      rw [none, neg_zero]
    · obtain rfl : number = 0 := by linarith
      have none : |(other : ℚ)| ≤ 0 := by simpa using atZero
      have none : other = 0 := by exact_mod_cast abs_nonpos_iff.mp none
      rw [none, neg_zero]

-----------------------------------------------------------------------------------------
-- Whole parts
-----------------------------------------------------------------------------------------

section
variable {x : Float} {sign : Sign} {size : ℚ}

theorem hasSize_ofNat {whole : Nat} (short : whole < 2 ^ 53)
    : HasSize (Float.ofNat whole).toModel.unpack .positive whole := by
  rcases Nat.eq_zero_or_pos whole with rfl | some
  · have zero : (Float.ofNat 0).toModel.unpack = .zero .positive := unpack_ofInt_zero
    rw [zero, Nat.cast_zero]
    exact .zero .positive
  · obtain ⟨shift, positive, unpacked, -, canonical⟩ := unpack_ofNat some short
    have same : ((whole * 2 ^ shift : Nat) * 2 ^ (-(shift : Int)) : ℚ) = whole := by
      rw [zpow_neg, zpow_natCast]
      push_cast
      field_simp
    rw [unpacked, ← same]
    exact .finite canonical

/-- The parts of a finite double are its sign and its size in units of its last place. -/
theorem HasSize.ofFloat_eq (sized : HasSize x.toModel.unpack sign size)
    : ∃ mantissa exponent,
        Double.ofFloat x = .finite (sign == .negative) mantissa exponent
        ∧ mantissa < 2 ^ 53
        ∧ size = mantissa * 2 ^ exponent := by
  unfold Double.ofFloat
  generalize x.toModel.unpack = f at sized
  cases sized with
  | zero => exact ⟨0, Double.minExponent, rfl, by decide, by simp⟩
  | finite canonical => exact ⟨_, _, rfl, canonical.1, rfl⟩

/-- The whole part of a size is its floor, of which no bit is lost. -/
theorem HasSize.wholePart (sized : HasSize x.toModel.unpack .positive size)
    : HasSize (wholePart x).toModel.unpack .positive ⌊size⌋ := by
  obtain ⟨mantissa, exponent, parts, short, same⟩ := sized.ofFloat_eq
  unfold Number.wholePart
  rw [parts]
  cases exponent with
  | ofNat places =>
      have whole : ((⌊size⌋ : Int) : ℚ) = size := by
        have counted : size = (mantissa * 2 ^ places : Nat) := by
          rw [same]
          push_cast
          rfl
        rw [counted, Int.floor_natCast, Int.cast_natCast]
      rw [whole]
      exact sized
  | negSucc places =>
      have floor : ⌊size⌋ = (mantissa / 2 ^ (places + 1) : Nat) := by
        have counted : size = (mantissa : ℚ) / (2 ^ (places + 1) : Nat) := by
          rw [same, zpow_negSucc]
          push_cast
          rfl
        rw [counted]
        exact Rat.floor_natCast_div_natCast mantissa (2 ^ (places + 1))
      rw [floor, Int.cast_natCast]
      exact hasSize_ofNat (lt_of_le_of_lt (Nat.div_le_self _ _) short)

end

-----------------------------------------------------------------------------------------
-- A half more
-----------------------------------------------------------------------------------------

/-- The size that a size is rounded to by adding a half to it and taking the whole part. Below
`2 ^ 52` one size misses the nearest whole number, and from there up to `2 ^ 53` the odd ones do.
-/
def roundedSize (size : ℚ) : Int :=
  if size = 1 / 2 - 1 / 2 ^ 54 then 1
  else if 2 ^ 52 ≤ size ∧ size < 2 ^ 53 then ⌊size⌋ + ⌊size⌋ % 2
  else round size

section
variable {mantissa : Nat} {exponent power : Int}

/-- A size that reaches a power of two has a place for it. -/
theorem IsCanonical.lt_exponent (canonical : IsCanonical mantissa exponent)
    (large : (2 : ℚ) ^ power ≤ mantissa * 2 ^ exponent)
    : power < 53 + exponent := by
  have short : (mantissa : ℚ) < 2 ^ (53 : Int) := by exact_mod_cast canonical.1
  rw [← zpow_lt_zpow_iff_right₀ (one_lt_two : (1 : ℚ) < 2)]
  calc (2 : ℚ) ^ power ≤ mantissa * 2 ^ exponent := large
    _ < 2 ^ (53 : Int) * 2 ^ exponent := mul_lt_mul_of_pos_right short (by positivity)
    _ = 2 ^ (53 + exponent) := (zpow_add₀ two_ne_zero _ _).symm

/-- A size below a power of two fills its bits below it. -/
theorem IsCanonical.exponent_lt (canonical : IsCanonical mantissa exponent)
    (small : (mantissa * 2 ^ exponent : ℚ) < 2 ^ power) (coarse : exponent ≠ -1074)
    : 52 + exponent < power := by
  have full : (2 : ℚ) ^ (52 : Int) ≤ mantissa := by
    exact_mod_cast canonical.2.2.2.resolve_right coarse
  rw [← zpow_lt_zpow_iff_right₀ (one_lt_two : (1 : ℚ) < 2)]
  calc (2 : ℚ) ^ (52 + exponent) = 2 ^ (52 : Int) * 2 ^ exponent := zpow_add₀ two_ne_zero _ _
    _ ≤ mantissa * 2 ^ exponent := mul_le_mul_of_nonneg_right full (by positivity)
    _ < 2 ^ power := small

end

section
variable {f : UnpackedFloat} {sign : Sign} {size rounded : ℚ}

/-- Of the sizes below a half, all but the greatest stay below one with a half more. -/
theorem HasSize.below_half (sized : HasSize f sign size) (small : size < 1 / 2)
    : size = 1 / 2 - 1 / 2 ^ 54 ∨ size ≤ 1 / 2 - 1 / 2 ^ 53 := by
  refine or_iff_not_imp_right.mpr fun large => ?_
  rw [not_le] at large
  cases sized with
  | zero => norm_num at large
  | @finite _ mantissa exponent positive canonical =>
      have lower : -2 < 53 + exponent :=
        canonical.lt_exponent (le_trans (by norm_num) large.le)
      have upper : 52 + exponent < -1 :=
        canonical.exponent_lt (lt_of_lt_of_eq small (by norm_num)) (by omega)
      obtain rfl : exponent = -54 := by omega
      have last : (2 ^ 53 : ℚ) < mantissa + 2 := by
        norm_num at large
        linarith
      have last : 2 ^ 53 < mantissa + 2 := by exact_mod_cast last
      have short := canonical.1
      obtain rfl : mantissa = 2 ^ 53 - 1 := by omega
      norm_num

/-- A size below a half is rounded to zero, but for the greatest one. -/
theorem HasSize.floor_below_half (sized : HasSize f sign size) (small : size < 1 / 2)
    (rounds : RoundsToSize (size + 1 / 2) rounded)
    : ⌊rounded⌋ = if size = 1 / 2 - 1 / 2 ^ 54 then 1 else round size := by
  have nonneg := sized.nonneg
  split
  next greatest =>
    -- one less a quarter of its last place is rounded to one
    have one : RoundsToSize (size + 1 / 2) 1 := by
      rw [greatest]
      have even : ¬ 2 ^ 53 % 2 = 1 := by decide
      refine ⟨2 ^ 53, -53, ⟨⟨?_, ?_, fun odd => absurd odd even⟩, by decide, .inl ?_, ?_⟩, ?_⟩
      all_goals norm_num
    rw [rounds.unique one, Int.floor_one]
  next other =>
    have none : round size = 0 := round_eq_zero_iff.mpr ⟨by linarith, small⟩
    have double : RoundsToSize (1 - 1 / 2 ^ 53) (1 - 1 / 2 ^ 53) := by
      have fraction : IsDouble ((2 ^ 53 - 1 : Int) / 2 ^ 53) :=
        isDouble_fraction (by decide) (by decide)
      refine IsDouble.rounds ?_ (by norm_num)
      norm_num at fraction ⊢
      exact fraction
    have below := (sized.below_half small).resolve_left other
    have above := rounds.mono double (by linarith)
    have zero := (HasSize.zero .positive).rounds.mono rounds (by linarith)
    rw [none]
    exact Int.floor_eq_zero_iff.mpr ⟨zero, lt_of_le_of_lt above (by norm_num)⟩

/-- A size and a half that have a common place of which the sum takes 53 bits are added exactly. -/
theorem isDouble_add_half {mantissa : Nat} {exponent unit : Int} (finer : unit ≤ exponent)
    (fraction : unit < 0) (least : -1074 ≤ unit)
    (short : (mantissa * 2 ^ exponent + 1 / 2 : ℚ) < 2 ^ (52 + unit + 1))
    : IsDouble (mantissa * 2 ^ exponent + 1 / 2) := by
  obtain ⟨shift, rfl⟩ : ∃ shift : Nat, exponent = unit + shift :=
    ⟨(exponent - unit).toNat, by omega⟩
  obtain ⟨places, rfl⟩ : ∃ places : Nat, unit = -1 - places := ⟨(-1 - unit).toNat, by omega⟩
  have unitPlace : (0 : ℚ) < 2 ^ (-1 - places : Int) := by positivity
  have half : (2 ^ places * 2 ^ (-1 - places : Int) : ℚ) = 1 / 2 := by
    rw [zpow_sub₀ two_ne_zero, zpow_natCast]
    field_simp
  have sum : (mantissa * 2 ^ (-1 - places + shift : Int) + 1 / 2 : ℚ)
      = (mantissa * 2 ^ shift + 2 ^ places : Nat) * 2 ^ (-1 - places : Int) := by
    rw [zpow_add₀ two_ne_zero, ← half, zpow_natCast]
    push_cast
    ring
  rw [sum, add_right_comm, zpow_add₀ two_ne_zero, mul_lt_mul_iff_left₀ unitPlace] at short
  rw [sum]
  have short : mantissa * 2 ^ shift + 2 ^ places < 2 ^ 53 := by exact_mod_cast short
  exact isDouble_signed least (by omega) .positive short

/-- From a half on and below `2 ^ 52`, the sum with a half may be rounded, but not as far as to the
next whole number.
-/
theorem HasSize.floor_fraction (sized : HasSize f sign size) (large : 1 / 2 ≤ size)
    (small : size < 2 ^ 52) (rounds : RoundsToSize (size + 1 / 2) rounded)
    : ⌊rounded⌋ = round size := by
  have nonneg := round_nonneg sized.nonneg
  have floor := round_le_add_half size
  have next := sub_half_lt_round size
  have short : (round size : ℚ) < 2 ^ 53 := by linarith
  have short : round size < 2 ^ 53 := by exact_mod_cast short
  have whole : RoundsToSize (round size) (round size) := by
    have double : IsDouble (round size / 2 ^ 0) := isDouble_fraction (by omega) (by decide)
    refine IsDouble.rounds ?_ (by exact_mod_cast nonneg)
    simpa using double
  refine Int.floor_eq_iff.mpr ⟨whole.mono rounds floor, ?_⟩
  by_contra beyond
  rw [not_lt] at beyond
  obtain ⟨units, unit, rounding, rfl⟩ := rounds
  have far : 0 < 52 + unit + 1 := by
    rw [← zpow_lt_zpow_iff_right₀ (one_lt_two : (1 : ℚ) < 2)]
    exact lt_of_le_of_lt (by norm_num; linarith) rounding.short
  have full : (2 : ℚ) ^ (52 + unit) ≤ size + 1 / 2 := rounding.full.resolve_right (by omega)
  have near : 52 + unit < 53 := by
    rw [← zpow_lt_zpow_iff_right₀ (one_lt_two : (1 : ℚ) < 2)]
    exact lt_of_le_of_lt full (by norm_num; linarith)
  rcases le_or_gt ((2 : ℚ) ^ (52 + unit)) size with same | crossed
  · -- the size has the place of the sum, which is exact then
    cases sized with
    | zero => norm_num at large
    | @finite _ mantissa exponent positive canonical =>
        have finer := canonical.lt_exponent same
        have below : 52 + unit < 52 := by
          rw [← zpow_lt_zpow_iff_right₀ (one_lt_two : (1 : ℚ) < 2)]
          exact lt_of_le_of_lt same small
        have double : IsDouble (mantissa * 2 ^ exponent + 1 / 2) :=
          isDouble_add_half (by omega) (by omega) rounding.inside rounding.short
        have exact := (double.rounds (by linarith)).unique ⟨units, unit, rounding, rfl⟩
        linarith
  · -- the sum has just passed a power of two, from which the next whole number is far
    obtain ⟨places, whole⟩ : ∃ places : Nat, 52 + unit = places := ⟨(52 + unit).toNat, by omega⟩
    have reached : ((2 ^ places : Nat) : ℚ) < round size + 1 := by
      rw [whole, zpow_natCast] at full
      push_cast
      linarith
    have reached : (2 ^ places : Nat) < round size + 1 := by exact_mod_cast reached
    have reached : ((2 ^ places : Nat) : ℚ) ≤ round size := by
      exact_mod_cast Int.lt_add_one_iff.mp reached
    rw [whole, zpow_natCast] at crossed
    push_cast at reached
    have place : (0 : ℚ) < 2 ^ unit := by positivity
    have lower := rounding.nearest.1
    rw [le_div_iff₀ place] at lower
    have small : (2 : ℚ) ^ unit ≤ 1 := zpow_le_one_of_nonpos₀ (by norm_num) (by omega)
    linarith

/-- From `2 ^ 52` on and below `2 ^ 53`, a half more lies in the middle between two doubles, of
which the even one is taken.
-/
theorem HasSize.floor_whole (sized : HasSize f sign size) (large : 2 ^ 52 ≤ size)
    (small : size < 2 ^ 53) (rounds : RoundsToSize (size + 1 / 2) rounded)
    : ⌊rounded⌋ = ⌊size⌋ + ⌊size⌋ % 2 := by
  cases sized with
  | zero => norm_num at large
  | @finite _ mantissa exponent positive canonical =>
      have lower : 52 < 53 + exponent := canonical.lt_exponent large
      have upper : 52 + exponent < 53 := canonical.exponent_lt small (by omega)
      obtain rfl : exponent = 0 := by omega
      rw [zpow_zero, mul_one] at *
      have full : 2 ^ 52 ≤ mantissa := by exact_mod_cast large
      have short : (mantissa : ℚ) + 1 ≤ 2 ^ 53 := by exact_mod_cast canonical.1
      have even : RoundsToSize (mantissa + 1 / 2) (mantissa + mantissa % 2 : Nat) := by
        refine ⟨mantissa + mantissa % 2, 0, ⟨?_, by decide, .inl ?_, ?_⟩, by simp⟩
        · rw [zpow_zero, div_one]
          exact isNearest_half mantissa
        · norm_num
          linarith
        · norm_num
          linarith
      rw [rounds.unique even, Int.floor_natCast, Int.floor_natCast]
      push_cast
      rfl

/-- From `2 ^ 53` on, the doubles are so far from each other that a half more is lost. -/
theorem HasSize.rounds_large (sized : HasSize f sign size) (large : 2 ^ 53 ≤ size)
    : RoundsToSize (size + 1 / 2) size := by
  cases sized with
  | zero => norm_num at large
  | @finite _ mantissa exponent positive canonical =>
      have lower : 53 < 53 + exponent := canonical.lt_exponent large
      have place : (0 : ℚ) < 2 ^ exponent := by positivity
      have coarse : (2 : ℚ) ^ (1 : Int) ≤ 2 ^ exponent :=
        zpow_le_zpow_right₀ (by norm_num) (by omega)
      have part : (1 / 2 / 2 ^ exponent : ℚ) ≤ 1 / 4 := by
        rw [div_le_iff₀ place]
        norm_num at coarse ⊢
        linarith
      have whole := canonical.roundsIn
      have short : (mantissa : ℚ) + 1 ≤ 2 ^ (53 : Int) := by exact_mod_cast canonical.1
      refine ⟨mantissa, exponent, ⟨?_, whole.inside, .inl ?_, ?_⟩, rfl⟩
      · rw [add_div, mul_div_cancel_right₀ _ place.ne']
        exact isNearest_of_lt_half mantissa (by positivity) (by linarith)
      · have full := whole.full.resolve_right (by omega)
        exact full.trans (le_add_of_nonneg_right (by norm_num))
      · have next : (mantissa * 2 ^ exponent + 1 / 2 : ℚ) < (mantissa + 1) * 2 ^ exponent := by
          norm_num at coarse
          linarith
        calc (mantissa * 2 ^ exponent + 1 / 2 : ℚ) < (mantissa + 1) * 2 ^ exponent := next
          _ ≤ 2 ^ (53 : Int) * 2 ^ exponent := mul_le_mul_of_nonneg_right short place.le
          _ = 2 ^ (((52 : Nat) : Int) + exponent + 1) := by
              rw [← zpow_add₀ two_ne_zero]
              congr 1
              push_cast
              ring

/-- A size from `2 ^ 52` on is a whole number. -/
theorem HasSize.exists_whole (sized : HasSize f sign size) (large : 2 ^ 52 ≤ size)
    : ∃ whole : Nat, size = whole := by
  cases sized with
  | zero => norm_num at large
  | @finite _ mantissa exponent positive canonical =>
      have lower : 52 < 53 + exponent := canonical.lt_exponent large
      obtain ⟨places, rfl⟩ : ∃ places : Nat, exponent = places := ⟨exponent.toNat, by omega⟩
      exact ⟨mantissa * 2 ^ places, by push_cast; rfl⟩

/-- What the whole part of a half more comes to. -/
theorem HasSize.floor_rounded (sized : HasSize f sign size)
    (rounds : RoundsToSize (size + 1 / 2) rounded)
    : ⌊rounded⌋ = roundedSize size := by
  unfold roundedSize
  rcases lt_or_ge size (1 / 2) with below | half
  · have fraction : ¬ (2 ^ 52 ≤ size ∧ size < 2 ^ 53) := fun inside => by linarith [inside.1]
    rw [if_neg fraction]
    exact sized.floor_below_half below rounds
  · have other : size ≠ 1 / 2 - 1 / 2 ^ 54 := by
      rintro rfl
      norm_num at half
    rw [if_neg other]
    split
    next inside => exact sized.floor_whole inside.1 inside.2 rounds
    next outside =>
      rcases lt_or_ge size (2 ^ 52) with fraction | large
      · exact sized.floor_fraction half fraction rounds
      · have large' : 2 ^ 53 ≤ size := not_lt.mp fun small => outside ⟨large, small⟩
        obtain ⟨whole, rfl⟩ := sized.exists_whole large
        rw [rounds.unique (sized.rounds_large large'), Int.floor_natCast, round_natCast]

end

-----------------------------------------------------------------------------------------
-- Rounding doubles
-----------------------------------------------------------------------------------------

section
variable {x : Float} {sign : Sign} {size : ℚ}

theorem hasSize_half : HasSize (0.5 : Float).toModel.unpack .positive (1 / 2) := by
  have half : (0.5 : Float) = powerOfTwo (-1) := by decide +kernel
  have least : -149 ≤ (-1 : Int) := by decide
  obtain ⟨positive, unpacked⟩ := unpack_powerOfTwo least (by decide)
  have canonical : IsCanonical (2 ^ 52) (-1 - 52) := ⟨by decide, by decide, by decide, .inl le_rfl⟩
  have same : ((2 ^ 52 : Nat) * 2 ^ (-1 - 52 : Int) : ℚ) = 1 / 2 := by norm_num
  rw [half, unpacked, ← same]
  exact .finite canonical

/-- With a half more, a double stays in the range of the doubles. -/
theorem HasSize.add_half_inside {f : UnpackedFloat} (sized : HasSize f sign size)
    : size + 1 / 2 < 2 ^ (1024 : Int) - 2 ^ (970 : Int) := by
  have most : size ≤ (2 ^ 53 - 1) * 2 ^ (971 : Int) := by
    cases sized with
    | zero => positivity
    | @finite _ mantissa exponent positive canonical =>
        have short : (mantissa : ℚ) + 1 ≤ 2 ^ 53 := by exact_mod_cast canonical.1
        have place : (2 : ℚ) ^ exponent ≤ 2 ^ (971 : Int) :=
          zpow_le_zpow_right₀ (by norm_num) canonical.2.2.1
        exact mul_le_mul (by linarith) place (by positivity) (by norm_num)
  have one : (1 : ℚ) ≤ 2 ^ (970 : Int) := one_le_zpow₀ (by norm_num) (by norm_num)
  have parts : (2 : ℚ) ^ (971 : Int) = 2 ^ (1 : Int) * 2 ^ (970 : Int)
      ∧ (2 : ℚ) ^ (1024 : Int) = 2 ^ (54 : Int) * 2 ^ (970 : Int) :=
    ⟨zpow_add₀ two_ne_zero 1 970, zpow_add₀ two_ne_zero 54 970⟩
  rw [parts.1] at most
  rw [parts.2]
  generalize (2 : ℚ) ^ (970 : Int) = unit at most one ⊢
  norm_num at most ⊢
  linarith

/-- The engine rounds a double to its sign and the rounded size. -/
theorem HasSize.roundHalfAway (sized : HasSize x.toModel.unpack sign size)
    : HasSize (roundHalfAway x).toModel.unpack sign (roundedSize size) := by
  obtain ⟨sum, added, rounds⟩ := sized.abs.add_float hasSize_half sized.add_half_inside
  have whole := added.wholePart.withSign sign
  obtain ⟨mantissa, exponent, parts, -, -⟩ := sized.ofFloat_eq
  rw [Number.roundHalfAway, if_pos sized.standsFor.finite, parts, ← sized.floor_rounded rounds]
  exact whole

end

-----------------------------------------------------------------------------------------
-- The sizes that go one too far
-----------------------------------------------------------------------------------------

/-- The numbers of which the engine misses the nearest whole number: the size just below a half and
the odd sizes of 53 bits.
-/
def Overshoots (number : ℚ) : Prop :=
  |number| = 1 / 2 - 1 / 2 ^ 54
  ∨ ∃ odd : Nat, odd % 2 = 1 ∧ 2 ^ 52 < odd ∧ odd < 2 ^ 53 ∧ |number| = odd

theorem roundedSize_below_half : roundedSize (1 / 2 - 1 / 2 ^ 54) = 1 :=
  if_pos rfl

/-- A whole size is not the one just below a half. -/
theorem natCast_ne_below_half (whole : Nat) : (whole : ℚ) ≠ 1 / 2 - 1 / 2 ^ 54 := by
  intro same
  have less : (whole : ℚ) < 1 := by
    rw [same]
    norm_num
  obtain rfl : whole = 0 := Nat.lt_one_iff.mp (by exact_mod_cast less)
  norm_num at same

/-- A whole size stays, but for the odd ones of 53 bits, which go to the next. -/
theorem roundedSize_natCast (whole : Nat)
    : roundedSize whole
      = if 2 ^ 52 ≤ whole ∧ whole < 2 ^ 53 then (whole : Int) + whole % 2 else whole := by
  have bits : (2 ^ 52 ≤ (whole : ℚ) ∧ (whole : ℚ) < 2 ^ 53) ↔ 2 ^ 52 ≤ whole ∧ whole < 2 ^ 53 := by
    norm_cast
  rw [roundedSize, if_neg (natCast_ne_below_half whole), Int.floor_natCast, round_natCast]
  simp only [bits]

theorem roundedSize_odd {odd : Nat} (rest : odd % 2 = 1) (large : 2 ^ 52 < odd)
    (small : odd < 2 ^ 53)
    : roundedSize odd = odd + 1 := by
  rw [roundedSize_natCast, if_pos ⟨large.le, small⟩]
  omega

section
variable {f : UnpackedFloat} {x : Float} {sign : Sign} {size : ℚ}

/-- All other sizes go to the nearest whole number. -/
theorem HasSize.roundedSize_eq_round (sized : HasSize f sign size)
    (others : ¬ Overshoots (signed sign size))
    : roundedSize size = round size := by
  rw [Overshoots, abs_signed sized.nonneg, not_or] at others
  obtain ⟨other, even⟩ := others
  rw [roundedSize, if_neg other]
  split
  next inside =>
    obtain ⟨whole, rfl⟩ := sized.exists_whole inside.1
    have large : 2 ^ 52 ≤ whole := by exact_mod_cast inside.1
    have small : whole < 2 ^ 53 := by exact_mod_cast inside.2
    have even : whole % 2 = 0 := by
      by_contra odd
      exact even ⟨whole, by omega, by omega, small, rfl⟩
    rw [Int.floor_natCast, round_natCast]
    omega
  next => rfl

theorem HasSize.roundedSize_ne_round (sized : HasSize f sign size)
    (overshoots : Overshoots (signed sign size))
    : roundedSize size ≠ round size := by
  rw [Overshoots, abs_signed sized.nonneg] at overshoots
  rcases overshoots with rfl | ⟨odd, rest, large, small, rfl⟩
  · have none : round (1 / 2 - 1 / 2 ^ 54 : ℚ) = 0 :=
      round_eq_zero_iff.mpr ⟨by norm_num, by norm_num⟩
    rw [roundedSize_below_half, none]
    decide
  · rw [roundedSize_odd rest large small, round_natCast]
    omega

theorem HasSize.roundedSize_nonneg (sized : HasSize f sign size) : 0 ≤ roundedSize size := by
  have nonneg := sized.nonneg
  unfold roundedSize
  split
  · decide
  split
  next inside =>
    have : 0 ≤ ⌊size⌋ := Int.floor_nonneg.mpr nonneg
    omega
  next => exact round_nonneg nonneg

/-- Of 53 bits, only even sizes are rounded to. -/
theorem HasSize.roundedSize_even (sized : HasSize f sign size) (large : 2 ^ 52 ≤ roundedSize size)
    (small : roundedSize size < 2 ^ 53)
    : roundedSize size % 2 = 0 := by
  unfold roundedSize at *
  split at large
  next => norm_num at large
  next other =>
    rw [if_neg other] at small ⊢
    split at large
    next inside =>
      rw [if_pos inside]
      omega
    next outside =>
      rw [if_neg outside] at small ⊢
      have lower : (2 ^ 52 : ℚ) ≤ round size := by exact_mod_cast large
      have upper : (round size : ℚ) < 2 ^ 53 := by exact_mod_cast small
      obtain ⟨below, above⟩ := abs_le.mp (abs_sub_round size)
      rcases lt_or_ge size (2 ^ 52) with crossed | reached
      · -- the size is just below the least one of 53 bits
        have most : (round size : ℚ) < (2 ^ 52 + 1 : Int) := by
          push_cast
          linarith
        have most : round size < 2 ^ 52 + 1 := by exact_mod_cast most
        omega
      · obtain ⟨whole, rfl⟩ := sized.exists_whole reached
        rw [round_natCast, Int.cast_natCast] at upper
        exact absurd ⟨reached, upper⟩ outside

/-- What has been rounded stays. -/
theorem HasSize.roundedSize_roundedSize (sized : HasSize f sign size)
    : roundedSize (roundedSize size) = roundedSize size := by
  obtain ⟨whole, same⟩ := Int.eq_ofNat_of_zero_le sized.roundedSize_nonneg
  rw [same, Int.cast_natCast, roundedSize_natCast]
  split
  next inside =>
    have even := sized.roundedSize_even (by omega) (by omega)
    omega
  next => rfl

theorem signed_intCast (sign : Sign) (whole : Int)
    : signed sign (whole : ℚ) = (sign.apply whole : Int) := by
  cases sign with
  | positive => rfl
  | negative => exact (Int.cast_neg whole).symm

theorem abs_apply (sign : Sign) (whole : Int) : |sign.apply whole| = |whole| := by
  cases sign with
  | positive => rfl
  | negative => exact abs_neg whole

theorem HasSize.isNegative (sized : HasSize x.toModel.unpack sign size)
    : (Double.ofFloat x).isNegative = (sign == .negative) := by
  obtain ⟨mantissa, exponent, parts, -, -⟩ := sized.ofFloat_eq
  rw [parts]
  rfl

theorem HasSize.isHalfAway_iff (sized : HasSize f sign size)
    : IsHalfAway (signed sign size) (sign.apply (roundedSize size))
      ↔ ¬ Overshoots (signed sign size) := by
  have nearest := isHalfAway_signed sign sized.nonneg
  constructor
  · intro rounds overshoots
    have same := rounds.unique nearest
    refine sized.roundedSize_ne_round overshoots ?_
    cases sign with
    | positive => exact same
    | negative => exact neg_injective same
  · intro others
    rw [sized.roundedSize_eq_round others]
    exact nearest

/-- A whole number stays exactly if it is not one of those that go one too far. -/
theorem HasSize.roundHalfAway_eq_iff (sized : HasSize x.toModel.unpack sign size) {whole : Int}
    (same : value x = whole)
    : Number.roundHalfAway x = x ↔ ¬ Overshoots (value x) := by
  have size_eq : |value x| = size := by rw [sized.standsFor.same, abs_signed sized.nonneg]
  have isWhole : (round size : ℚ) = size := by
    rw [← size_eq, same, ← Int.cast_abs, round_intCast]
  have rounded := sized.roundHalfAway
  rw [sized.standsFor.same]
  constructor
  · intro stays overshoots
    have again : |value x| = roundedSize size := by
      rw [← stays, rounded.standsFor.same, abs_signed rounded.nonneg]
    refine sized.roundedSize_ne_round overshoots ?_
    exact_mod_cast again.symm.trans (size_eq.trans isWhole.symm)
  · intro others
    rw [sized.roundedSize_eq_round others, isWhole] at rounded
    exact eq_of_hasSize rounded sized

/-- The engine rounds every finite double to a whole number and keeps the sign, the one of zero
included. It is the nearest one, a half away from zero, exactly if the double is not the one just
below a half and not an odd number of 53 bits; those go one too far. So a whole number stays exactly
if it is not such an odd one, and what has been rounded always stays.
-/
theorem roundHalfAway_nearest {x : Float} (finite : x.isFinite = true)
    : Formula.Registry.default.call "rint" [x] = .ok (roundHalfAway x)
      ∧ (Double.ofFloat (roundHalfAway x)).isNegative = (Double.ofFloat x).isNegative
      ∧ (∃ whole : Int,
          StandsFor (roundHalfAway x) whole
          ∧ (IsHalfAway (value x) whole ↔ ¬ Overshoots (value x))
          ∧ (|value x| = 1 / 2 - 1 / 2 ^ 54 → |whole| = 1)
          ∧ ∀ odd : Nat,
              odd % 2 = 1 → 2 ^ 52 < odd → odd < 2 ^ 53 → |value x| = odd → |whole| = odd + 1)
      ∧ (∀ whole : Int, value x = whole → (roundHalfAway x = x ↔ ¬ Overshoots (value x)))
      ∧ roundHalfAway (roundHalfAway x) = roundHalfAway x := by
  obtain ⟨sign, size, sized⟩ := exists_hasSize finite
  have rounded := sized.roundHalfAway
  have same : value x = signed sign size := sized.standsFor.same
  have size_eq : |value x| = size := by rw [same, abs_signed sized.nonneg]
  refine ⟨rfl, ?_, ⟨sign.apply (roundedSize size), ?_, ?_, ?_, ?_⟩, ?_, ?_⟩
  · rw [rounded.isNegative, sized.isNegative]
  · rw [← signed_intCast]
    exact rounded.standsFor
  · rw [same]
    exact sized.isHalfAway_iff
  · intro just
    rw [abs_apply, ← size_eq, just, roundedSize_below_half]
    rfl
  · intro odd rest large small same
    rw [abs_apply, ← size_eq, same, roundedSize_odd rest large small]
    rfl
  · exact fun whole same => sized.roundHalfAway_eq_iff same
  · refine eq_of_hasSize rounded.roundHalfAway ?_
    rw [sized.roundedSize_roundedSize]
    exact rounded

/-- The greatest half there is, below zero: the sum with a half just reaches `2 ^ 52`. -/
theorem roundHalfAway_nearest_greatest_half
    : (-4503599627370495.5 : Float).isFinite = true
      ∧ Formula.Registry.default.call "rint" [-4503599627370495.5] = .ok (-4503599627370496.0)
      ∧ value (-4503599627370495.5) = -9007199254740991 / 2
      ∧ IsHalfAway (-9007199254740991 / 2) (-4503599627370496) := by
  have finite : (-4503599627370495.5 : Float).isFinite = true := by decide +kernel
  have same : value (-4503599627370495.5) = -9007199254740991 / 2 := by decide +kernel
  obtain ⟨called, -, ⟨whole, stands, nearest, -⟩, -⟩ := roundHalfAway_nearest finite
  have rounded : roundHalfAway (-4503599627370495.5) = -4503599627370496.0 := by decide +kernel
  have reached : value (-4503599627370496.0) = (-4503599627370496 : Int) := by decide +kernel
  rw [rounded] at called stands
  have whole_eq : (whole : ℚ) = (-4503599627370496 : Int) := stands.same.symm.trans reached
  obtain rfl : whole = -4503599627370496 := by exact_mod_cast whole_eq
  refine ⟨finite, called, same, ?_⟩
  rw [same] at nearest
  refine nearest.mpr ?_
  rintro (just | ⟨odd, -, -, -, isOdd⟩)
  · norm_num [abs] at just
  · have half : (9007199254740991 : ℚ) / 2 = odd := by
      rw [← isOdd]
      norm_num [abs]
    have twice : (9007199254740991 : ℚ) = (2 * odd : Nat) := by
      push_cast
      linarith
    have twice : 9007199254740991 = 2 * odd := by exact_mod_cast twice
    omega

/-- The double just below a half goes to one, and the first odd number of 53 bits does not stay. -/
theorem rounded_one_too_far
    : Formula.Registry.default.call "rint" [0.49999999999999994] = .ok 1.0
      ∧ value 1.0 = (1 : Int)
      ∧ ¬ IsHalfAway (value 0.49999999999999994) 1
      ∧ value 4503599627370497.0 = (4503599627370497 : Int)
      ∧ Formula.Registry.default.call "rint" [4503599627370497.0] = .ok 4503599627370498.0
      ∧ (4503599627370498.0 : Float) ≠ 4503599627370497.0 := by
  have below : roundHalfAway 0.49999999999999994 = 1.0 := by decide +kernel
  have odd : roundHalfAway 4503599627370497.0 = 4503599627370498.0 := by decide +kernel
  refine ⟨congrArg Except.ok below, by decide +kernel, ?_, by decide +kernel,
    congrArg Except.ok odd, by decide +kernel⟩
  intro rounds
  have just : value 0.49999999999999994 = 1 / 2 - 1 / 2 ^ 54 := by decide +kernel
  have nearer := rounds.nearest 0
  rw [just] at nearer
  norm_num [abs] at nearer

end

end Wavetable.Number
