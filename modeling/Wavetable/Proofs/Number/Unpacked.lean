import Mathlib
import Wavetable.Number.Double

/-!
Doubles and their unpacked forms. The unpacked form of a double is canonical: its mantissa fills
the available bits unless the exponent is the least one. Canonical forms and doubles correspond to
each other one by one.
-/

namespace Wavetable.Number

open Float.Model (Format UnpackedFloat)
open Float.Model.UnpackedFloat

theorem toBitVec_ofBitVec (bit : BitVec 1) : (Sign.ofBitVec bit).toBitVec = bit := by
  revert bit
  decide

theorem ofBitVec_toBitVec (sign : Sign) : Sign.ofBitVec sign.toBitVec = sign := by
  cases sign <;> rfl

theorem unpackSign_packComponents {spec : Format} {sign exponent mantissa}
    : unpackSign (packComponents spec sign exponent mantissa) = sign.toBitVec := by
  ext i inside
  obtain rfl : i = 0 := by omega
  simp [unpackSign, packComponents, BitVec.getLsbD_append, BitVec.getElem_append]

/-- A double has a sign, an exponent and a mantissa. -/
theorem exists_packComponents (bits : BitVec 64)
    : ∃ (sign : Sign) (exponent : BitVec 11) (mantissa : BitVec 52),
        bits = packComponents Format.binary64 sign exponent mantissa := by
  refine ⟨.ofBitVec (@unpackSign Format.binary64 bits), @unpackExponent Format.binary64 bits,
    @unpackMantissa Format.binary64 bits, ?_⟩
  simp only [packComponents, toBitVec_ofBitVec]
  ext i inside
  simp [unpackSign, unpackExponent, unpackMantissa]
  grind

/-- The unpacked form of its three parts. -/
theorem unpack_packComponents (sign : Sign) (exponent : BitVec 11) (mantissa : BitVec 52)
    : unpack Format.binary64 (packComponents Format.binary64 sign exponent mantissa)
      = if exponent = -1#11 then
          if mantissa = 0#52 then .infinity sign else .notANumber
        else if exponent = 0#11 then
          if none : mantissa = 0#52 then .zero sign
          else .finite sign mantissa.toNat (-1074)
            (by simpa [BitVec.toNat_pos, BitVec.pos_iff_ne_zero])
        else
          .finite sign (2 ^ 52 + mantissa.toNat) (exponent.toNat - 1075) (by omega) := by
  have implicit : (1#1 ++ mantissa).toNat = 2 ^ 52 + mantissa.toNat := by
    rw [BitVec.toNat_append, ← Nat.shiftLeft_add_eq_or_of_lt mantissa.isLt]
    rfl
  simp only [unpack, unpackSign_packComponents, unpackExponent_packComponents,
    unpackMantissa_packComponents, ofBitVec_toBitVec, implicit]
  split
  · rfl
  split
  next none =>
    subst none
    rfl
  · rfl

/-- The mantissa has exactly 53 bits, or fewer at the least exponent. -/
def IsCanonical (mantissa : Nat) (exponent : Int) : Prop :=
  mantissa < 2 ^ 53 ∧ -1074 ≤ exponent ∧ exponent ≤ 971
    ∧ (2 ^ 52 ≤ mantissa ∨ exponent = -1074)

/-- The mantissa fills its bits, whether or not the exponent is one of a double. -/
def FillsBits (mantissa : Nat) (exponent : Int) : Prop :=
  mantissa < 2 ^ 53 ∧ -1074 ≤ exponent ∧ (2 ^ 52 ≤ mantissa ∨ exponent = -1074)

theorem IsCanonical.fillsBits {mantissa : Nat} {exponent : Int}
    (canonical : IsCanonical mantissa exponent)
    : FillsBits mantissa exponent :=
  ⟨canonical.1, canonical.2.1, canonical.2.2.2⟩

theorem isCanonical_unpack {bits : BitVec 64} {sign mantissa exponent positive}
    (unpacked : unpack Format.binary64 bits = .finite sign mantissa exponent positive)
    : IsCanonical mantissa exponent := by
  obtain ⟨sign, biased, fraction, rfl⟩ := exists_packComponents bits
  rw [unpack_packComponents] at unpacked
  have short : fraction.toNat < 2 ^ 52 := fraction.isLt
  split at unpacked
  · split at unpacked <;> contradiction
  next notAll =>
  split at unpacked
  · split at unpacked
    · contradiction
    next some =>
    injection unpacked with _ same least
    subst same least
    refine ⟨?_, ?_, ?_, .inr rfl⟩ <;> omega
  next notNone =>
    injection unpacked with _ same least
    subst same least
    have bounded : biased.toNat < 2048 := biased.isLt
    have all : biased.toNat ≠ 2047 := fun h => notAll (BitVec.eq_of_toNat_eq h)
    have none : biased.toNat ≠ 0 := fun h => notNone (BitVec.eq_of_toNat_eq h)
    refine ⟨?_, ?_, ?_, .inl ?_⟩ <;> omega

theorem log2_of_normal {mantissa : Nat} (full : 2 ^ 52 ≤ mantissa) (short : mantissa < 2 ^ 53)
    : mantissa.log2 = 52 :=
  (Nat.log2_eq_iff (by omega)).mpr ⟨full, short⟩

/-- A mantissa of 53 bits is packed without the first of them. -/
theorem pack_normal {sign mantissa exponent positive} (canonical : IsCanonical mantissa exponent)
    (full : 2 ^ 52 ≤ mantissa)
    : pack Format.binary64 (.finite sign mantissa exponent positive)
      = packComponents Format.binary64 sign (BitVec.ofNat 11 (exponent + 1075).toNat)
          (BitVec.ofNat 52 (mantissa - 2 ^ 52)) := by
  obtain ⟨short, least, most, -⟩ := canonical
  have within : ¬ 2 ^ 11 ≤ (exponent + 1023 + 52).toNat + 1 := by omega
  have implicit : BitVec.ofNat 52 (mantissa - 2 ^ 52) = BitVec.ofNat 52 mantissa := by
    apply BitVec.eq_of_toNat_eq
    simp only [BitVec.toNat_ofNat]
    omega
  rw [implicit]
  have bits : mantissa.log2 + 1 = 53 := by rw [log2_of_normal full short]
  have same : exponent + 1075 = exponent + 1023 + 52 := by omega
  rw [same]
  exact (if_neg within).trans (if_pos bits)

theorem pack_subnormal {sign mantissa positive} (short : mantissa < 2 ^ 52)
    : pack Format.binary64 (.finite sign mantissa (-1074) positive)
      = packComponents Format.binary64 sign 0#11 (BitVec.ofNat 52 mantissa) := by
  have bits : ¬ mantissa.log2 + 1 = 53 := by
    have := (Nat.log2_lt (Nat.ne_of_gt positive)).mpr short
    omega
  unfold pack
  rw [if_neg (by decide)]
  exact if_neg bits

theorem finite_congr {sign mantissa mantissa' exponent exponent' positive positive'}
    (same : mantissa = mantissa') (same' : exponent = exponent')
    : UnpackedFloat.finite sign mantissa exponent positive
      = .finite sign mantissa' exponent' positive' := by
  subst same same'
  rfl

theorem packComponents_congr {sign : Sign} {exponent exponent' : BitVec 11}
    {mantissa mantissa' : BitVec 52} (same : exponent.toNat = exponent'.toNat)
    (same' : mantissa.toNat = mantissa'.toNat)
    : packComponents Format.binary64 sign exponent mantissa
      = packComponents Format.binary64 sign exponent' mantissa' := by
  rw [BitVec.eq_of_toNat_eq same, BitVec.eq_of_toNat_eq same']

theorem ofNat_ne {width n : Nat} {bits : BitVec width} (short : n < 2 ^ width)
    (other : n ≠ bits.toNat)
    : BitVec.ofNat width n ≠ bits := by
  intro same
  have counted := congrArg BitVec.toNat same
  rw [BitVec.toNat_ofNat, Nat.mod_eq_of_lt short] at counted
  exact other counted

/-- Packing a canonical form loses nothing. -/
theorem unpack_pack {sign mantissa exponent positive} (canonical : IsCanonical mantissa exponent)
    : unpack Format.binary64 (pack Format.binary64 (.finite sign mantissa exponent positive))
      = .finite sign mantissa exponent positive := by
  obtain ⟨short, least, most, normal⟩ := id canonical
  by_cases full : 2 ^ 52 ≤ mantissa
  · have biased : (BitVec.ofNat 11 (exponent + 1075).toNat).toNat = (exponent + 1075).toNat := by
      rw [BitVec.toNat_ofNat]
      omega
    have notAll : BitVec.ofNat 11 (exponent + 1075).toNat ≠ -1#11 := by
      refine ofNat_ne (by omega) ?_
      change _ ≠ 2047
      omega
    have notNone : BitVec.ofNat 11 (exponent + 1075).toNat ≠ 0#11 := by
      refine ofNat_ne (by omega) ?_
      change _ ≠ 0
      omega
    rw [pack_normal canonical full, unpack_packComponents, if_neg notAll, if_neg notNone]
    refine finite_congr ?_ ?_
    · rw [BitVec.toNat_ofNat]
      omega
    · rw [biased]
      omega
  · obtain rfl : exponent = -1074 := by omega
    have small : mantissa < 2 ^ 52 := by omega
    have kept : (BitVec.ofNat 52 mantissa).toNat = mantissa := by
      rw [BitVec.toNat_ofNat]
      omega
    have notNone : BitVec.ofNat 52 mantissa ≠ 0#52 := ofNat_ne small positive.ne'
    rw [pack_subnormal small, unpack_packComponents, if_neg (by decide), if_pos rfl,
      dif_neg notNone]
    exact finite_congr kept rfl

/-- Packing puts the parts of a double together again. -/
theorem pack_unpack {bits : BitVec 64} (valid : Format.binary64.Valid bits)
    : pack Format.binary64 (unpack Format.binary64 bits) = bits := by
  obtain ⟨sign, biased, fraction, rfl⟩ := exists_packComponents bits
  have canonical := @isCanonical_unpack (packComponents Format.binary64 sign biased fraction)
  rw [unpack_packComponents] at canonical ⊢
  have short : fraction.toNat < 2 ^ 52 := fraction.isLt
  split
  next all =>
    subst all
    split
    next none =>
      subst none
      rfl
    next some =>
      -- all bits of the exponent and some of the mantissa: only one such double is valid
      refine (valid.eq_packedNaN ?_ ?_).symm
      · rw [unpackExponent_packComponents]
      · rwa [unpackMantissa_packComponents]
  next notAll =>
    split
    next none =>
      subst none
      split
      next zero =>
        subst zero
        rfl
      next some => rw [pack_subnormal short, BitVec.ofNat_toNat, BitVec.setWidth_eq]
    next notNone =>
      rw [if_neg notAll, if_neg notNone] at canonical
      rw [pack_normal (canonical rfl) (by omega)]
      have bounded : biased.toNat < 2048 := biased.isLt
      refine packComponents_congr ?_ ?_
      · rw [BitVec.toNat_ofNat]
        omega
      · rw [BitVec.toNat_ofNat]
        omega

/-- A double is told by its unpacked form. -/
theorem pack_unpack_float (x : Float) : Float.ofModel (.pack x.toModel.unpack) = x := by
  obtain ⟨⟨bits, valid⟩⟩ := x
  have same : UInt64.ofBitVec (pack Format.binary64 (unpack Format.binary64 bits.toBitVec))
      = bits := by
    rw [pack_unpack valid]
  simp only [Float.Model.pack, Float.Model.unpack, same]

theorem eq_of_unpack {x y : Float} (same : x.toModel.unpack = y.toModel.unpack) : x = y := by
  rw [← pack_unpack_float x, same, pack_unpack_float]

theorem unpack_pack_zero (sign : Sign)
    : (Float.Model.pack (.zero sign)).unpack = .zero sign :=
  unpack_packComponents sign 0 0

/-- A form is exactly that of a power of ten. -/
def isPowerOfTen (power : Nat) : UnpackedFloat → Bool
  | .finite .positive mantissa exponent _ =>
      mantissa * 2 ^ exponent.toNat == 10 ^ power * 2 ^ (-exponent).toNat
  | _ => false

theorem isPowerOfTen_table
    : ∀ power : Fin 23,
        isPowerOfTen power Float.exactlyRepresentablePowersOfTen[power].toModel.unpack := by
  decide +kernel

theorem lt_size_table {power : Nat} (small : power ≤ 22)
    : power < Float.exactlyRepresentablePowersOfTen.size :=
  Nat.lt_of_le_of_lt small (by decide)

/-- The tabulated powers of ten are exact. -/
theorem unpack_powerOfTen {power : Nat}
    (inside : power < Float.exactlyRepresentablePowersOfTen.size)
    : ∃ mantissa exponent positive,
        Float.exactlyRepresentablePowersOfTen[power].toModel.unpack
          = .finite .positive mantissa exponent positive
        ∧ mantissa * 2 ^ exponent.toNat = 10 ^ power * 2 ^ (-exponent).toNat := by
  have exact := isPowerOfTen_table ⟨power, inside⟩
  simp only [Fin.getElem_fin] at exact
  generalize Float.exactlyRepresentablePowersOfTen[power].toModel.unpack = f at exact ⊢
  match f with
  | .finite .positive mantissa exponent positive =>
      simp only [isPowerOfTen, beq_iff_eq] at exact
      exact ⟨mantissa, exponent, positive, rfl, exact⟩

end Wavetable.Number
