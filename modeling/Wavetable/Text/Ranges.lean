/-!
Sets of characters given as ranges of code points, the form in which the tables of character
properties are written.
-/

namespace Wavetable.Text

/-- A set of characters as a list of closed ranges of code points. -/
abbrev Ranges := List (Nat × Nat)

/-- A character belongs to a set when some range of it holds its code point. -/
def Ranges.has (ranges : Ranges) (c : Char) : Bool :=
  ranges.any fun range => range.1 ≤ c.toNat && c.toNat ≤ range.2

/-- Belonging to a set is lying between the ends of one of its ranges, by unfolding the test. -/
theorem Ranges.has_iff {ranges : Ranges} {c : Char}
    : ranges.has c = true ↔ ∃ range ∈ ranges, range.1 ≤ c.toNat ∧ c.toNat ≤ range.2 := by
  simp [Ranges.has]

end Wavetable.Text
