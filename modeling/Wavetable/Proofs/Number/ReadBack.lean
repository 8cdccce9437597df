import Wavetable.Proofs.Number.Positional
import Wavetable.Proofs.Number.Scientific
import Wavetable.Proofs.Number.Shortest

/-!
The positional text of a double reads back as that double.
-/

namespace Wavetable.Number

section
variable {x : Float} {mantissa : Nat} {exponent : Int} {positive : 0 < mantissa}

/-- A decimal that rounds to a double is read back from its positional notation. -/
theorem ofDecimal_positionalChars {digits : Nat} {power : Int}
    (unpacked : x.toModel.unpack = .finite .positive mantissa exponent positive)
    (rounds : RoundsTo (digits * 10 ^ power / 2 ^ exponent) mantissa exponent)
    : ofDecimal ((positionalChars digits power).takeWhile (· ≠ '.'))
        (((positionalChars digits power).dropWhile (· ≠ '.')).drop 1) 0
      = x := by
  obtain ⟨whole, fraction, -, within, written, value⟩ := positionalChars_eq digits power
  obtain ⟨before, behind⟩ := cut_at_point fraction fun c member =>
    within c (List.mem_append_left _ member)
  rw [written, before, behind]
  have same : (digitsValue (whole ++ fraction) : ℚ) * 10 ^ (0 - (fraction.length : Int))
      = digits * 10 ^ power / 2 ^ exponent * 2 ^ exponent := by
    rw [zero_sub, value, div_mul_cancel₀ _ (by positivity)]
  refine nearestDouble_eq unpacked rounds same ?_ (by omega)
  rw [List.length_append]
  omega

/-- A double without a sign is written by its shortest decimal. -/
theorem toList_positional (parts : Double.ofFloat x = .finite false mantissa exponent)
    : (positional x).toList
      = positionalChars (shortest mantissa exponent).digits
          (shortest mantissa exponent).exponent := by
  unfold positional named withNames
  rw [parts]
  simp only [signChars, String.toList_ofList]
  rfl

/-- The shortest decimal of a positive double is read back as that double. -/
theorem ofDecimal_positional
    (unpacked : x.toModel.unpack = .finite .positive mantissa exponent positive)
    : ofDecimal ((positional x).toList.takeWhile (· ≠ '.'))
        (((positional x).toList.dropWhile (· ≠ '.')).drop 1) 0
      = x := by
  have parts : Double.ofFloat x = .finite false mantissa exponent := by
    rw [Double.ofFloat, unpacked]
    rfl
  rw [toList_positional parts]
  exact ofDecimal_positionalChars unpacked (shortest_rounds (isCanonical_unpack unpacked) positive)

end

end Wavetable.Number
