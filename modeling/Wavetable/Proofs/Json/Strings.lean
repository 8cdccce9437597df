import Wavetable.Json.Reader
import Wavetable.Json.Writer

/-!
Strings in JSON texts. What a string is written as between its marks is read back as that string,
whatever its characters are.
-/

namespace Wavetable.Json

/-- No character stands among the halves of pairs. -/
theorem toNat_outside_halves (c : Char)
    : c.toNat < Text.firstHalf ∨ Text.firstHalf + Text.halfCount ≤ c.toNat := by
  have valid : c.toNat.isValidChar := c.valid
  unfold Nat.isValidChar at valid
  simp only [Text.firstHalf, Text.halfCount]
  omega

theorem isHighHalf_toNat (c : Char) : Text.isHighHalf c.toNat = false := by
  refine Bool.eq_false_iff.mpr fun half => ?_
  obtain ⟨low, high⟩ := Bool.and_eq_true_iff.mp half
  rcases toNat_outside_halves c with below | above
  · exact absurd (of_decide_eq_true low) (Nat.not_le_of_lt below)
  · have inside := Nat.lt_of_le_of_lt above (of_decide_eq_true high)
    exact absurd (Nat.lt_of_add_lt_add_left inside) (by decide)

theorem isLowHalf_toNat (c : Char) : Text.isLowHalf c.toNat = false := by
  refine Bool.eq_false_iff.mpr fun half => ?_
  obtain ⟨low, high⟩ := Bool.and_eq_true_iff.mp half
  rcases toNat_outside_halves c with below | above
  · have inside := Nat.le_trans (Nat.le_add_right _ _) (of_decide_eq_true low)
    exact absurd inside (Nat.not_le_of_lt below)
  · exact absurd (of_decide_eq_true high) (Nat.not_lt_of_le above)

theorem unitChar?_toNat (keepsHalves : Bool) (c : Char)
    : unitChar? keepsHalves c.toNat = some c := by
  simp [unitChar?, isHighHalf_toNat, isLowHalf_toNat]

/-- Code points of characters are joined to the same characters, by induction on the text. -/
theorem joinHalves_toNat (keepsHalves : Bool) (cs : List Char)
    : joinHalves keepsHalves (cs.map Char.toNat) = some cs := by
  match cs with
  | [] => rfl
  | [c] => simp [joinHalves, unitChar?_toNat]
  | c :: next :: rest =>
      have ih := joinHalves_toNat keepsHalves (next :: rest)
      simp only [List.map_cons] at ih ⊢
      simp [joinHalves, isHighHalf_toNat, unitChar?_toNat, ih]

/-- The two digits of a control are read as its code point. -/
theorem codeUnit?_control {n : Nat} (control : n < 0x20)
    : codeUnit? '0' '0' (Nat.digitChar (n / 16)) (Nat.digitChar (n % 16)) = some n := by
  have all : ∀ n < 0x20,
      codeUnit? '0' '0' (Nat.digitChar (n / 16)) (Nat.digitChar (n % 16)) = some n := by decide
  exact all n control

/-- A character is written so that its code point is read, whatever stands behind it. -/
theorem stringUnits_escapeChar (c : Char) (cs : List Char)
    : stringUnits (escapeChar c ++ cs)
      = (stringUnits cs).map fun (units, rest) => (c.toNat :: units, rest) := by
  by_cases named : c ∈ ['"', '\\', '\n', '\r', '\t', '\x08', '\x0c']
  · simp only [List.mem_cons, List.not_mem_nil, or_false] at named
    rcases named with rfl | rfl | rfl | rfl | rfl | rfl | rfl <;>
      cases read : stringUnits cs <;> simp [escapeChar, stringUnits, escaped?, read]
  · simp only [List.mem_cons, List.not_mem_nil, or_false, not_or] at named
    obtain ⟨mark, backslash, h1, h2, h3, h4, h5⟩ := named
    by_cases control : c.toNat < 0x20
    · simp only [escapeChar, mark, backslash, h1, h2, h3, h4, h5, control, if_true, if_false,
        List.cons_append, List.nil_append, stringUnits, codeUnit?_control control]
      cases stringUnits cs <;> rfl
    · simp only [escapeChar, mark, backslash, h1, h2, h3, h4, h5, control, if_false,
        List.cons_append, List.nil_append]
      rw [stringUnits]
      · simp only [control, if_false]
        cases stringUnits cs <;> rfl
      · exact mark
      · intro _ _ _ _ _ slash
        exact absurd slash backslash
      · intro _ _ slash
        exact absurd slash backslash

/-- A written string is read up to its closing mark, by induction on its characters. -/
theorem stringUnits_escaped (cs rest : List Char)
    : stringUnits (cs.flatMap escapeChar ++ '"' :: rest) = some (cs.map Char.toNat, rest) := by
  induction cs with
  | nil => simp [stringUnits]
  | cons c cs ih =>
      rw [List.flatMap_cons, List.append_assoc, stringUnits_escapeChar, ih]
      rfl

/-- Behind its opening mark, a written string is read back. -/
theorem readString_escaped (dialect : Dialect) (s : String) (rest : List Char)
    : readString dialect (s.toList.flatMap escapeChar ++ '"' :: rest) = some (s, rest) := by
  simp [readString, stringUnits_escaped, joinHalves_toNat]

end Wavetable.Json
