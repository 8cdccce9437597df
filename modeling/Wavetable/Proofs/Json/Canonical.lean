import Wavetable.Proofs.Json.RoundTrip

/-!
What JSON texts tell apart. Of a string between its marks and of a whole number nothing is lost,
and neither is of the bytes of a text.
-/

namespace Wavetable.Json

open Wavetable.Number

/-- A string is told by its text up to the closing mark, whatever stands behind it. -/
theorem stringChars_append_inj {s t : String} {behind after : List Char}
    (same : stringChars s ++ behind = stringChars t ++ after)
    : s = t ∧ behind = after := by
  simp only [stringChars, List.cons_append, List.append_assoc, List.nil_append,
    List.cons.injEq, true_and] at same
  have read := congrArg (readString ⟨none, true, true⟩) same
  rw [readString_escaped, readString_escaped] at read
  exact Prod.mk.inj (Option.some.inj read)

theorem digitChars_injective : Function.Injective digitChars := fun m n same => by
  rw [← digitsValue_digitChars m, same, digitsValue_digitChars]

/-- A whole number is told by its sign and its digits. -/
theorem integerChars_injective : Function.Injective integerChars := by
  have apart : ∀ m n : Int, 0 ≤ m → n < 0 → integerChars m ≠ integerChars n := by
    intro m n low negative same
    obtain ⟨first, digits, written, digit, -⟩ := digitChars_eq_cons m.natAbs
    rw [integerChars, integerChars, signChars, signChars, decide_eq_false (Int.not_lt.mpr low),
      decide_eq_true negative, if_neg Bool.false_ne_true, if_pos rfl, written] at same
    rw [(List.cons.inj same).1] at digit
    contradiction
  intro m n same
  have size : (m < 0 ↔ n < 0) → m.natAbs = n.natAbs := by
    intro sign
    rw [integerChars, integerChars, decide_eq_decide.mpr sign] at same
    exact digitChars_injective (List.append_cancel_left same)
  rcases Int.lt_or_le m 0 with left | left <;> rcases Int.lt_or_le n 0 with right | right
  · have := size (iff_of_true left right)
    omega
  · exact absurd same.symm (apart n m right left)
  · exact absurd same (apart m n left right)
  · have := size (iff_of_false (Int.not_lt.mpr left) (Int.not_lt.mpr right))
    omega

end Wavetable.Json

namespace Wavetable.Text

/-- The bytes of an array from an index on are listed behind those before, by induction on what is
left.
-/
theorem toList_loop_byteArray (bytes : ByteArray) (index : Nat) (before : List UInt8)
    : ByteArray.toList.loop bytes index before
      = before.reverse ++ bytes.data.toList.drop index := by
  fun_induction ByteArray.toList.loop bytes index before with
  | case1 index before inside ih =>
      have within : index < bytes.data.toList.length := by simpa using inside
      have next : bytes.get! index = bytes.data.toList[index] := by
        rw [Array.getElem_toList]
        exact getElem!_pos bytes.data index inside
      rw [ih, List.drop_eq_getElem_cons within, next, List.reverse_cons, List.append_assoc,
        List.singleton_append]
  | case2 index before outside =>
      rw [List.drop_eq_nil_of_le (by simpa using Nat.le_of_not_lt outside), List.append_nil]

/-- A text is told by its bytes. -/
theorem utf8_injective {s t : String} (same : s.toUTF8.toList = t.toUTF8.toList) : s = t := by
  simp only [ByteArray.toList, toList_loop_byteArray, List.reverse_nil, List.nil_append,
    List.drop_zero] at same
  exact String.toByteArray_inj.mp (ByteArray.ext (Array.toList_inj.mp same))

end Wavetable.Text
