import Wavetable.Number.Double

/-!
Reproducible random numbers. A 64-bit linear congruential generator is stepped from a seed, and
the top 53 bits of each state give a number between minus one and one.
-/

namespace Wavetable.Random

-- The powers of the core library, whichever other instance is in scope.
attribute [local instance (1100)] instPowNat

/-- The count of states. -/
def modulus : Nat := 2 ^ (64 : Nat)

/-- The factor of a step. -/
def multiplier : Nat := 6364136223846793005

/-- The summand of a step. -/
def increment : Nat := 1442695040888963407

/-- The state after another one. -/
def next (state : Nat) : Nat :=
  (state * multiplier + increment) % modulus

/-- The state that a seed stands for; it is not drawn itself. -/
def ofSeed (seed : Int) : Nat :=
  (seed % modulus).toNat

/-- The first states that are drawn from a state on. -/
def draws : Nat → Nat → List Nat
  | _, 0 => []
  | state, count + 1 => next state :: draws (next state) count

theorem length_draws (state count : Nat) : (draws state count).length = count := by
  induction count generalizing state with
  | zero => rfl
  | succ count ih => rw [draws, List.length_cons, ih]

/-- The first states that are drawn from a seed. -/
def stream (seed : Int) (count : Nat) : List Nat :=
  draws (ofSeed seed) count

/-- One over `2 ^ 53`. -/
def unitStep : Float := Number.powerOfTwo (-53)

/-- The number from zero to one that a state gives, or nothing where its bits are too many. -/
def unit? (raw : Int) : Option Float :=
  (Number.ofInteger? (raw / 2 ^ (11 : Nat))).map (· * unitStep)

/-- The number from zero to one that a state gives. -/
def unit (raw : Nat) : Float :=
  Float.ofNat (raw / 2 ^ (11 : Nat)) * unitStep

/-- The numbers from minus one to one that all frames of a table share. -/
def table (seed : Int) (count : Nat) : List Float :=
  (stream seed count).map fun raw => unit raw * 2.0 - 1.0

/-- The table has as many numbers as are asked for. -/
theorem length_table (seed : Int) (count : Nat) : (table seed count).length = count := by
  rw [table, List.length_map, stream, length_draws]

/-- The table of a count that may be negative, which none is. -/
def table? (seed count : Int) : Option (List Float) :=
  if count < 0 then none else some (table seed count.toNat)

end Wavetable.Random
