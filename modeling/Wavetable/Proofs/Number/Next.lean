import Wavetable.Number.Double
import Wavetable.Proofs.Number.Difference

/-!
The double after a double. Doubles without a minus are numbered by their bits in the order of their
values, so the next bits are those of the least double above.
-/

namespace Wavetable.Number

open Float.Model (Format UnpackedFloat)
open Float.Model.UnpackedFloat

-----------------------------------------------------------------------------------------
-- Bits
-----------------------------------------------------------------------------------------

theorem toNat_packComponents (exponent : BitVec 11) (mantissa : BitVec 52)
    : (packComponents Format.binary64 .positive exponent mantissa).toNat
      = exponent.toNat * 2 ^ 52 + mantissa.toNat := by
  have short : mantissa.toNat < 2 ^ 52 := mantissa.isLt
  have unsigned : (Sign.positive.toBitVec ++ exponent).toNat = exponent.toNat := by
    rw [BitVec.toNat_append]
    exact Nat.zero_or _
  unfold packComponents
  rw [BitVec.toNat_append, unsigned, ← Nat.shiftLeft_add_eq_or_of_lt short, Nat.shiftLeft_eq]

section
variable {mantissa : Nat} {exponent : Int} (positive : 0 < mantissa)

/-- The mantissas of one exponent are numbered one after the other, and those of the next exponent
behind them.
-/
theorem toNat_pack (canonical : IsCanonical mantissa exponent)
    : (pack Format.binary64 (.finite .positive mantissa exponent positive)).toNat
      = (exponent + 1074).toNat * 2 ^ 52 + mantissa := by
  obtain ⟨short, least, most, normal⟩ := id canonical
  by_cases full : 2 ^ 52 ≤ mantissa
  · rw [pack_normal canonical full, toNat_packComponents, BitVec.toNat_ofNat, BitVec.toNat_ofNat]
    omega
  · obtain rfl : exponent = -1074 := by omega
    have kept : (BitVec.ofNat 52 mantissa).toNat = mantissa := by
      rw [BitVec.toNat_ofNat]
      omega
    rw [pack_subnormal (not_le.mp full), toNat_packComponents, kept]
    rfl

theorem toNat_pack_infinity
    : (pack Format.binary64 (.infinity .positive)).toNat = 2047 * 2 ^ 52 := by
  decide +kernel

/-- The next bits are those of the size with one unit more. Behind the last mantissa of an exponent
stands the first one of the next exponent, and behind the largest double infinity.
-/
theorem exists_next_form (canonical : IsCanonical mantissa exponent)
    : ∃ f : UnpackedFloat,
        IsSize f
        ∧ unpackedValue f = (mantissa + 1) * 2 ^ exponent
        ∧ pack Format.binary64 f
          = pack Format.binary64 (.finite .positive mantissa exponent positive) + 1 := by
  have counted := toNat_pack positive canonical
  obtain ⟨short, least, most, normal⟩ := canonical
  by_cases within : mantissa + 1 < 2 ^ 53
  · have canonical' : IsCanonical (mantissa + 1) exponent :=
      ⟨within, least, most, normal.imp_left (by omega)⟩
    refine ⟨.finite .positive (mantissa + 1) exponent (by omega), .finite canonical', ?_, ?_⟩
    · simp [unpackedValue, signed]
    · apply BitVec.eq_of_toNat_eq
      rw [toNat_pack _ canonical', BitVec.toNat_add, counted]
      change _ = (_ + 1) % 2 ^ 64
      omega
  have last : mantissa + 1 = 2 ^ 53 := by omega
  have counted' : (mantissa : ℚ) + 1 = 2 ^ (53 : Int) := by exact_mod_cast last
  rw [counted', ← zpow_add₀ two_ne_zero]
  by_cases top : exponent = 971
  · subst top
    refine ⟨.infinity .positive, .infinity _, ?_, ?_⟩
    · simp only [unpackedValue, signed, beyond]
      norm_num
    · apply BitVec.eq_of_toNat_eq
      rw [toNat_pack_infinity, BitVec.toNat_add, counted]
      change _ = (_ + 1) % 2 ^ 64
      omega
  · have canonical' : IsCanonical (2 ^ 52) (exponent + 1) :=
      ⟨by decide, by omega, by omega, .inl le_rfl⟩
    refine ⟨.finite .positive (2 ^ 52) (exponent + 1) (by decide), .finite canonical', ?_, ?_⟩
    · have first : ((2 ^ 52 : Nat) : ℚ) = 2 ^ (52 : Int) := by norm_num
      simp only [unpackedValue, signed]
      rw [first, ← zpow_add₀ two_ne_zero]
      congr 1
      ring
    · apply BitVec.eq_of_toNat_eq
      rw [toNat_pack _ canonical', BitVec.toNat_add, counted]
      change _ = (_ + 1) % 2 ^ 64
      omega

end

/-- Bits are read as the form that they are packed from. -/
theorem unpack_ofBits {f : UnpackedFloat} (size : IsSize f) {bits : UInt64}
    (packed : pack Format.binary64 f = bits.toBitVec)
    : (Float.ofBits bits).toModel.unpack = f := by
  have read : unpack Format.binary64 bits.toBitVec = f := by
    rw [← packed]
    exact size.unpack_pack
  change (Float.Model.pack (unpack Format.binary64 bits.toBitVec)).unpack = f
  rw [read]
  exact size.unpack_pack

-----------------------------------------------------------------------------------------
-- The least double above
-----------------------------------------------------------------------------------------

/-- Between a size and the one with one unit more there is no other. -/
theorem next_le_of_size_lt {mantissa mantissa' : Nat} {exponent exponent' : Int}
    (canonical : IsCanonical mantissa exponent) (canonical' : IsCanonical mantissa' exponent')
    (below : (mantissa * 2 ^ exponent : ℚ) < mantissa' * 2 ^ exponent')
    : ((mantissa + 1) * 2 ^ exponent : ℚ) ≤ mantissa' * 2 ^ exponent' := by
  rcases lt_trichotomy exponent exponent' with lower | rfl | higher
  · obtain ⟨short, least, -, -⟩ := canonical
    obtain ⟨-, -, -, normal⟩ := canonical'
    have full : 2 ^ 52 ≤ mantissa' := normal.resolve_right (by omega)
    have full : (2 : ℚ) ^ (52 : Int) ≤ mantissa' := by exact_mod_cast full
    have short : (mantissa : ℚ) + 1 ≤ 2 ^ (53 : Int) := by exact_mod_cast short
    calc ((mantissa + 1) * 2 ^ exponent : ℚ) ≤ 2 ^ (53 : Int) * 2 ^ exponent :=
          mul_le_mul_of_nonneg_right short (by positivity)
      _ = 2 ^ (52 + (exponent + 1)) := by rw [← zpow_add₀ two_ne_zero]; congr 1; ring
      _ ≤ 2 ^ (52 + exponent') := zpow_le_zpow_right₀ (by norm_num) (by omega)
      _ = 2 ^ (52 : Int) * 2 ^ exponent' := zpow_add₀ two_ne_zero _ _
      _ ≤ mantissa' * 2 ^ exponent' := mul_le_mul_of_nonneg_right full (by positivity)
  · have unit : (0 : ℚ) < 2 ^ exponent := by positivity
    have less : mantissa < mantissa' := by exact_mod_cast (mul_lt_mul_iff_left₀ unit).mp below
    exact mul_le_mul_of_nonneg_right (by exact_mod_cast less) unit.le
  · exact absurd below (size_lt_of_exponent_lt canonical' canonical higher).not_gt

/-- The number of infinity is not below the size behind the largest one. -/
theorem next_le_beyond {mantissa : Nat} {exponent : Int}
    (canonical : IsCanonical mantissa exponent)
    : ((mantissa + 1) * 2 ^ exponent : ℚ) ≤ beyond := by
  obtain ⟨short, -, most, -⟩ := canonical
  have short : (mantissa : ℚ) + 1 ≤ 2 ^ (53 : Int) := by exact_mod_cast short
  calc ((mantissa + 1) * 2 ^ exponent : ℚ) ≤ 2 ^ (53 : Int) * 2 ^ exponent :=
        mul_le_mul_of_nonneg_right short (by positivity)
    _ = 2 ^ (53 + exponent) := (zpow_add₀ two_ne_zero _ _).symm
    _ ≤ 2 ^ (1024 : Int) := zpow_le_zpow_right₀ (by norm_num) (by omega)
    _ = beyond := by rw [beyond]

/-- The second double is the least one above the first. -/
structure Follows (x next : Float) : Prop where
  number : next.isNaN = false
  above : value x < value next
  least : ∀ y : Float, y.isNaN = false → value x < value y → value next ≤ value y

section
variable {x : Float}

theorem follows_of_value {next : Float} {mantissa : Nat} {exponent : Int}
    (canonical : IsCanonical mantissa exponent) (same : value x = mantissa * 2 ^ exponent)
    (number : next.isNaN = false) (same' : value next = (mantissa + 1) * 2 ^ exponent)
    : Follows x next := by
  have unit : (0 : ℚ) < 2 ^ exponent := by positivity
  refine ⟨number, ?_, fun y number' above => ?_⟩
  · rw [same, same']
    linarith
  rw [same] at above
  rw [same']
  have size := isSize_unpack number'
  unfold value at above ⊢
  generalize y.toModel.unpack = f at size above ⊢
  have nonneg : (0 : ℚ) ≤ mantissa * 2 ^ exponent := by positivity
  cases size with
  | infinity sign =>
      cases sign with
      | positive => exact next_le_beyond canonical
      | negative => exact absurd (nonneg.trans_lt above) (neg_lt_zero.mpr beyond_pos).not_gt
  | zero sign => exact (nonneg.trans_lt above).false.elim
  | @finite sign mantissa' exponent' positive canonical' =>
      cases sign with
      | positive => exact next_le_of_size_lt canonical canonical' above
      | negative =>
          have below := neg_lt_zero.mpr (size_pos exponent' positive)
          exact absurd (nonneg.trans_lt above) below.not_gt

/-- For a finite double that is not below zero, the next double is the least one above. -/
theorem follows_nextAbove (finite : x.isFinite = true) (notBelow : 0 ≤ value x)
    : Follows x (nextAbove x) := by
  have number := isNaN_of_isFinite finite
  unfold nextAbove
  split
  next zero =>
    have none : value x = 0 := ((beq_iff_value number isNaN_zero).mp zero).trans value_zero
    have canonical : IsCanonical 1 (-1074) := by unfold IsCanonical; decide
    have unpacked : (Float.ofBits 1).toModel.unpack = .finite .positive 1 (-1074) one_pos :=
      unpack_ofBits (.finite canonical) (by decide +kernel)
    have canonical' : IsCanonical 0 (-1074) := by unfold IsCanonical; decide
    refine follows_of_value canonical' ?_ (congrArg UnpackedFloat.isNaN unpacked) ?_
    · simpa using none
    · rw [value_eq unpacked]
      simp [unpackedValue, signed]
  next some =>
    rw [Bool.not_eq_true, ← Bool.not_eq_true, beq_iff_value number isNaN_zero, value_zero] at some
    have above : 0 < value x := lt_of_le_of_ne notBelow (Ne.symm some)
    rw [if_pos ((lt_iff_value isNaN_zero number).mpr (value_zero.symm ▸ above))]
    have packed : pack Format.binary64 x.toModel.unpack = x.toBits.toBitVec :=
      pack_unpack x.toModel.valid
    have form := StandsFor.isForm ⟨finite, rfl⟩
    generalize unpacked : x.toModel.unpack = f, counted : value x = number at form packed
    cases form with
    | zero sign => exact absurd counted some
    | @finite sign mantissa exponent positive canonical =>
        have size := size_pos exponent positive
        cases sign with
        | negative =>
            rw [counted] at above
            exact absurd above (neg_lt_zero.mpr size).not_gt
        | positive =>
            obtain ⟨f, size', same, packed'⟩ := exists_next_form positive canonical
            have read : (Float.ofBits (x.toBits + 1)).toModel.unpack = f :=
              unpack_ofBits size' (by rw [packed', packed]; rfl)
            exact follows_of_value canonical counted
              ((congrArg UnpackedFloat.isNaN read).trans size'.isNaN)
              ((value_eq read).trans same)

end

end Wavetable.Number
