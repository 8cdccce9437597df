import Mathlib.Algebra.Ring.GeomSum
import Mathlib.Dynamics.PeriodicPts.Lemmas
import Mathlib.NumberTheory.Multiplicity
import Wavetable.Proofs.Grid.Random

/-!
The generator has its full period. A state comes back after exactly the multiples of `2 ^ 64` steps,
so every state is drawn before one is drawn twice, and at each index different seeds give different
draws.
-/

namespace Wavetable.Random

-----------------------------------------------------------------------------------------
-- Steps
-----------------------------------------------------------------------------------------

/-- What an increment has grown to after so many steps, counted in increments. -/
def grown (steps : Nat) : Int :=
  ∑ i ∈ Finset.range steps, (multiplier : Int) ^ i

theorem grown_succ (steps : Nat) : grown (steps + 1) = multiplier * grown steps + 1 :=
  geom_sum_succ

/-- A power of two divides what has grown exactly if it divides the count of steps. The multiplier
is one more than a multiple of four, so a power of it less one has the twos of its exponent besides
those of `multiplier - 1`.
-/
theorem two_pow_dvd_grown_iff (k steps : Nat) : 2 ^ k ∣ grown steps ↔ 2 ^ k ∣ steps := by
  have lifted := Int.two_pow_sub_pow' (x := multiplier) (y := 1) steps (by decide) (by decide)
  have sum : grown steps * (multiplier - 1) = multiplier ^ steps - 1 := geom_sum_mul _ steps
  rw [one_pow, ← sum, emultiplicity_mul Int.prime_two, add_comm] at lifted
  have finite : emultiplicity 2 ((multiplier : Int) - 1) ≠ ⊤ :=
    finiteMultiplicity_iff_emultiplicity_ne_top.mp
      (Int.finiteMultiplicity_iff.mpr ⟨by decide, by decide⟩)
  have same := ENat.add_right_injective_of_ne_top finite lifted
  rw [pow_dvd_iff_le_emultiplicity, same, ← pow_dvd_iff_le_emultiplicity]
  exact_mod_cast Iff.rfl

/-- A step is affine, and so are many of them, by induction on their number. -/
theorem iterate_next_modEq (state steps : Nat)
    : (next^[steps] state : Int)
      ≡ multiplier ^ steps * state + increment * grown steps [ZMOD 2 ^ 64] := by
  induction steps with
  | zero =>
      rw [grown, Finset.sum_range_zero, pow_zero, one_mul, mul_zero, add_zero]
      rfl
  | succ steps ih =>
      have step : (next (next^[steps] state) : Int)
          ≡ next^[steps] state * multiplier + increment [ZMOD 2 ^ 64] := by
        rw [next]
        push_cast
        exact Int.mod_modEq _ _
      have affine : (multiplier ^ steps * state + increment * grown steps) * multiplier + increment
          = (multiplier ^ (steps + 1) * state + increment * grown (steps + 1) : Int) := by
        rw [grown_succ]
        ring
      rw [Function.iterate_succ_apply', ← affine]
      exact step.trans ((ih.mul_right _).add_right _)

/-- The distance from a state to the one after some steps is what has grown in these times an odd
number.
-/
theorem iterate_next_modEq_iff (state steps : Nat)
    : (next^[steps] state : Int) ≡ state [ZMOD 2 ^ 64] ↔ 2 ^ 64 ∣ steps := by
  have sum : grown steps * (multiplier - 1) = multiplier ^ steps - 1 := geom_sum_mul _ steps
  have distance : multiplier ^ steps * state + increment * grown steps - state
      = grown steps * ((multiplier - 1) * state + increment) := by
    linear_combination -(state : Int) * sum
  have odd : IsCoprime (2 ^ 64 : Int) ((multiplier - 1) * state + increment) := by
    refine IsCoprime.pow_left (Int.isCoprime_two_left.mpr (Even.add_odd ?_ (by decide)))
    exact Even.mul_right (by decide) _
  have reached := iterate_next_modEq state steps
  rw [← two_pow_dvd_grown_iff]
  constructor
  · intro same
    refine odd.dvd_of_dvd_mul_right ?_
    rw [← distance]
    exact (same.symm.trans reached).dvd
  · intro divides
    refine reached.trans (Int.modEq_iff_dvd.mpr ?_).symm
    rw [distance]
    exact divides.mul_right _

theorem iterate_next_lt {state : Nat} (short : state < 2 ^ 64) (steps : Nat)
    : next^[steps] state < 2 ^ 64 := by
  cases steps with
  | zero => exact short
  | succ steps =>
      rw [Function.iterate_succ_apply']
      exact next_lt _

/-- A state comes back after exactly the multiples of `2 ^ 64` steps. -/
theorem iterate_next_eq_self_iff {state : Nat} (short : state < 2 ^ 64) (steps : Nat)
    : next^[steps] state = state ↔ 2 ^ 64 ∣ steps := by
  have reached := iterate_next_lt short steps
  rw [← iterate_next_modEq_iff state steps]
  constructor
  · intro same
    rw [same]
  · intro congruent
    have same := congruent.eq
    omega

theorem minimalPeriod_next {state : Nat} (short : state < 2 ^ 64)
    : Function.minimalPeriod next state = 2 ^ 64 := by
  refine Nat.dvd_antisymm ?_ ?_
  · exact Function.IsPeriodicPt.minimalPeriod_dvd ((iterate_next_eq_self_iff short _).mpr dvd_rfl)
  · exact (iterate_next_eq_self_iff short _).mp (Function.isPeriodicPt_minimalPeriod next state)

-----------------------------------------------------------------------------------------
-- Draws
-----------------------------------------------------------------------------------------

/-- The state that is drawn at an index from a seed. -/
def drawAt (seed : Int) (index : Nat) : Nat :=
  next^[index + 1] (ofSeed seed)

theorem drawAt_eq (seed : Int) (index : Nat)
    : drawAt seed index = next^[index] (next (ofSeed seed)) :=
  Function.iterate_succ_apply next index (ofSeed seed)

theorem ofSeed_eq (seed : Int) : ofSeed seed = (seed % 2 ^ 64).toNat := rfl

theorem ofSeed_lt (seed : Int) : ofSeed seed < 2 ^ 64 := by
  rw [ofSeed_eq]
  omega

/-- The draws from a seed are listed in order. -/
theorem stream_eq_map (seed : Int) (count : Nat)
    : stream seed count = (List.range count).map (drawAt seed) := by
  refine List.ext_getElem? fun i => ?_
  rcases Nat.lt_or_ge i count with inside | outside
  · rw [stream, draws_getElem? _ inside, List.getElem?_map, List.getElem?_range inside]
    rfl
  · rw [List.getElem?_eq_none, List.getElem?_eq_none]
    · rwa [List.length_map, List.length_range]
    · rwa [stream, length_draws]

/-- Each number of steps maps the states to themselves one to one. The way back goes on to where the
period has passed once for each step.
-/
theorem iterate_next_bijOn (steps : Nat)
    : Set.BijOn next^[steps] (Set.Iio (2 ^ 64)) (Set.Iio (2 ^ 64)) := by
  have within : ∀ steps, Set.MapsTo next^[steps] (Set.Iio (2 ^ 64)) (Set.Iio (2 ^ 64)) :=
    fun steps state short => iterate_next_lt short steps
  have round : (2 ^ 64 - 1) * steps + steps = 2 ^ 64 * steps := by omega
  have back : ∀ state < 2 ^ 64, next^[2 ^ 64 * steps] state = state := fun state short =>
    (iterate_next_eq_self_iff short _).mpr (Nat.dvd_mul_right _ _)
  have inverse : Set.InvOn next^[(2 ^ 64 - 1) * steps] next^[steps]
      (Set.Iio (2 ^ 64)) (Set.Iio (2 ^ 64)) := by
    constructor
    · intro state short
      rw [← Function.iterate_add_apply, round, back state short]
    · intro state short
      rw [← Function.iterate_add_apply, Nat.add_comm, round, back state short]
  exact inverse.bijOn (within _) (within _)

/-- The seeds of 64 bits stand for the states, each for itself. -/
theorem ofSeed_bijOn : Set.BijOn ofSeed (Set.Ico 0 (2 ^ 64)) (Set.Iio (2 ^ 64)) := by
  have inverse : Set.InvOn Nat.cast ofSeed (Set.Ico 0 (2 ^ 64)) (Set.Iio (2 ^ 64)) := by
    constructor
    · rintro seed ⟨least, most⟩
      rw [ofSeed_eq, Int.emod_eq_of_lt least most]
      exact Int.toNat_of_nonneg least
    · intro state short
      simp only [Set.mem_Iio] at short
      rw [ofSeed_eq]
      omega
  refine inverse.bijOn (fun seed _ => ofSeed_lt seed) ?_
  intro state short
  simp only [Set.mem_Iio] at short
  exact ⟨by omega, by omega⟩

theorem ofSeed_eq_iff (seed other : Int)
    : ofSeed seed = ofSeed other ↔ seed ≡ other [ZMOD 2 ^ 64] := by
  rw [ofSeed_eq, ofSeed_eq, Int.ModEq]
  omega

/-- The draws from any seed are all different up to the index `2 ^ 64`, and two draws are the same
exactly if their indices differ by a multiple of it. At each index the seeds of 64 bits are mapped
to the states one to one, and other seeds give the draws of those that they are congruent to.
-/
theorem full_period
    : (∀ seed count, stream seed count = (List.range count).map (drawAt seed))
      ∧ (∀ seed, (stream seed (2 ^ 64)).Nodup)
      ∧ (∀ seed index steps,
          drawAt seed (index + steps) = drawAt seed index ↔ 2 ^ 64 ∣ steps)
      ∧ (∀ index,
          Set.BijOn (fun seed => drawAt seed index) (Set.Ico 0 (2 ^ 64)) (Set.Iio (2 ^ 64)))
      ∧ ∀ seed other index,
          drawAt seed index = drawAt other index ↔ seed ≡ other [ZMOD 2 ^ 64] := by
  have first : ∀ seed, next (ofSeed seed) < 2 ^ 64 := fun seed => next_lt _
  refine ⟨stream_eq_map, ?_, ?_, ?_, ?_⟩
  · intro seed
    rw [stream_eq_map]
    refine List.Nodup.map_on ?_ List.nodup_range
    intro i inside j inside' same
    rw [drawAt_eq, drawAt_eq] at same
    have apart := Function.iterate_injOn_Iio_minimalPeriod (f := next) (x := next (ofSeed seed))
    rw [minimalPeriod_next (first seed)] at apart
    exact apart (List.mem_range.mp inside) (List.mem_range.mp inside') same
  · intro seed index steps
    rw [drawAt_eq, drawAt_eq, Nat.add_comm, Function.iterate_add_apply]
    exact iterate_next_eq_self_iff (iterate_next_lt (first seed) index) steps
  · intro index
    have composed := (iterate_next_bijOn (index + 1)).comp ofSeed_bijOn
    exact composed
  · intro seed other index
    have apart := (iterate_next_bijOn (index + 1)).injOn.eq_iff (ofSeed_lt seed) (ofSeed_lt other)
    rw [← ofSeed_eq_iff, ← apart]
    rfl

end Wavetable.Random
