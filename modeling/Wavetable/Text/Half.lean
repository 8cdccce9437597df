/-!
Halves of surrogate pairs. A half that stands alone is no character, so a character for private
use takes its place in a text.
-/

namespace Wavetable.Text

/-- The smallest code unit that is half of a pair. -/
def firstHalf : Nat := 0xd800

/-- The number of code units that are half of a pair. -/
def halfCount : Nat := 0x800

/-- The first of the characters that take the place of halves. -/
def firstStandIn : Nat := 0x10e000

/-- The first half of a pair. -/
def isHighHalf (unit : Nat) : Bool :=
  firstHalf ≤ unit && unit < firstHalf + 0x400

/-- The second half of a pair. -/
def isLowHalf (unit : Nat) : Bool :=
  firstHalf + 0x400 ≤ unit && unit < firstHalf + halfCount

/-- The character that two halves write. -/
def joinedHalves (high low : Nat) : Char :=
  Char.ofNat (0x10000 + (high - firstHalf) * 0x400 + (low - (firstHalf + 0x400)))

/-- The character in the place of a half. -/
def halfChar (unit : Nat) : Char :=
  Char.ofNat (firstStandIn + (unit - firstHalf))

/-- The half in whose place a character stands. -/
def halfUnit? (c : Char) : Option Nat :=
  if firstStandIn ≤ c.toNat ∧ c.toNat < firstStandIn + halfCount then
    some (firstHalf + (c.toNat - firstStandIn))
  else none

/-- The character in the place of a half names it, since the place is a valid code point. -/
theorem halfUnit?_halfChar {unit : Nat} (low : firstHalf ≤ unit)
    (high : unit < firstHalf + halfCount)
    : halfUnit? (halfChar unit) = some unit := by
  simp only [firstHalf, halfCount] at low high
  have hv : (firstStandIn + (unit - firstHalf)).isValidChar := by
    refine Or.inr ⟨?_, ?_⟩ <;> simp only [firstStandIn, firstHalf] <;> omega
  have hn : (halfChar unit).toNat = firstStandIn + (unit - firstHalf) := by
    rw [halfChar, Char.ofNat, dif_pos hv]
    rfl
  simp only [halfUnit?, hn, firstStandIn, firstHalf, halfCount]
  split
  · exact congrArg some (by omega)
  · omega

end Wavetable.Text
