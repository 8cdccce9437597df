import Mathlib.Data.Rat.Floor
import Wavetable.Grid.Random
import Wavetable.Proofs.Number.Arithmetic

/-!
The random numbers of a table are exact: each of them is a multiple of `2 ^ -52`, and none of the
operations that make it from a state of the generator rounds.
-/

namespace Wavetable.Random

open Number

-----------------------------------------------------------------------------------------
-- States
-----------------------------------------------------------------------------------------

/-- The states behind a seed as the recurrence gives them, the one that the seed stands for first.
-/
def stateAt (seed : Int) : Nat → Int
  | 0 => seed % 2 ^ 64
  | i + 1 => (stateAt seed i * 6364136223846793005 + 1442695040888963407) % 2 ^ 64

theorem next_lt (state : Nat) : next state < 2 ^ 64 :=
  Nat.mod_lt _ (by decide)

theorem stateAt_eq (seed : Int) (i : Nat) : stateAt seed i = (next^[i] (ofSeed seed) : Nat) := by
  induction i with
  | zero =>
      have positive : 0 ≤ seed % 2 ^ 64 := Int.emod_nonneg _ (by decide)
      exact (Int.toNat_of_nonneg positive).symm
  | succ i ih =>
      rw [stateAt, ih, Function.iterate_succ_apply', next]
      push_cast
      rfl

/-- The draw of an index is one step further than the index tells. -/
theorem draws_getElem? (state : Nat) {count i : Nat} (inside : i < count)
    : (draws state count)[i]? = some (next^[i + 1] state) := by
  induction count generalizing state i with
  | zero => exact absurd inside (Nat.not_lt_zero i)
  | succ count ih =>
      cases i with
      | zero => rw [draws, List.getElem?_cons_zero, zero_add, Function.iterate_one]
      | succ i =>
          rw [draws, List.getElem?_cons_succ, ih _ (Nat.lt_of_succ_lt_succ inside)]
          exact congrArg some (Function.iterate_succ_apply next (i + 1) state).symm

/-- Fewer draws from the same state are the first ones of more. -/
theorem draws_isPrefix (state count more : Nat)
    : draws state count <+: draws state (count + more) := by
  induction count generalizing state with
  | zero => exact List.nil_prefix
  | succ count ih =>
      rw [Nat.succ_add, draws, draws]
      exact (List.prefix_cons_inj _).mpr (ih (next state))

-----------------------------------------------------------------------------------------
-- Numbers
-----------------------------------------------------------------------------------------

theorem unitStep_eq : unitStep = 1.0 / Float.ofNat (2 ^ 53) := by
  decide +kernel

/-- All numbers on the way from a state to an entry of the table are doubles. -/
structure DrawnExactly (state : Nat) (whole : Int) : Prop where
  bits : StandsFor (Float.ofNat (state / 2 ^ 11)) whole
  step : unitStep = 1.0 / Float.ofNat (2 ^ 53) ∧ StandsFor unitStep (1 / 2 ^ 53)
  drawn : StandsFor (unit state) (whole / 2 ^ 53)
  doubled : StandsFor (unit state * 2.0) (whole / 2 ^ 52)
  entry : StandsFor (unit state * 2.0 - 1.0) (whole / 2 ^ 52 - 1)

/-- The top 53 bits of a state are a multiple of `2 ^ -53`, and so is all that is made of them. -/
theorem drawnExactly_of_lt {state : Nat} (short : state < 2 ^ 64)
    : DrawnExactly state ⌊(state : ℚ) / 2 ^ 11⌋ := by
  have floor : ⌊(state : ℚ) / 2 ^ 11⌋ = (state / 2 ^ 11 : Nat) := by
    exact_mod_cast Rat.floor_natCast_div_natCast state (2 ^ 11)
  have few : state / 2 ^ 11 < 2 ^ 53 := by omega
  have made : unit state = Float.ofNat (state / 2 ^ 11) * unitStep := rfl
  obtain ⟨whole, counted⟩ : ∃ whole : Int, whole = (state / 2 ^ 11 : Nat) := ⟨_, rfl⟩
  rw [floor, ← counted]
  have short : whole.natAbs < 2 ^ 53 := by omega
  have bits : StandsFor (Float.ofNat (state / 2 ^ 11)) whole := by
    rw [counted]
    exact standsFor_ofNat few
  have step : StandsFor unitStep (1 / 2 ^ 53) := by
    have power : (2 : ℚ) ^ (-53 : Int) = 1 / 2 ^ 53 := by norm_num
    exact power ▸ standsFor_powerOfTwo (by decide) (by decide)
  have drawn : StandsFor (unit state) (whole / 2 ^ 53) := by
    have product : (whole / 2 ^ 53 : ℚ) = whole * (1 / 2 ^ 53) := by ring
    have double : IsDouble (whole / 2 ^ 53) := isDouble_fraction short (by decide)
    rw [made]
    rw [product] at double ⊢
    exact bits.mul step double
  have doubled : StandsFor (unit state * 2.0) (whole / 2 ^ 52) := by
    have product : (whole / 2 ^ 52 : ℚ) = whole / 2 ^ 53 * 2 := by ring
    have double : IsDouble (whole / 2 ^ 52) := isDouble_fraction short (by decide)
    rw [product] at double ⊢
    exact drawn.mul standsFor_two double
  refine ⟨bits, ⟨unitStep_eq, step⟩, drawn, doubled, doubled.sub standsFor_one ?_⟩
  have difference : (whole / 2 ^ 52 - 1 : ℚ) = (whole - 2 ^ 52 : Int) / 2 ^ 52 := by
    push_cast
    ring
  rw [difference]
  exact isDouble_fraction (by omega) (by decide)

-----------------------------------------------------------------------------------------
-- Tables
-----------------------------------------------------------------------------------------

/-- An entry lies between minus one and one, as the floor of a state by `2 ^ 11` has 53 bits. -/
theorem entry_bounds {state : Nat} (short : state < 2 ^ 64)
    : let whole := ⌊(state : ℚ) / 2 ^ 11⌋
      (-1 : ℚ) ≤ whole / 2 ^ 52 - 1 ∧ (whole / 2 ^ 52 - 1 : ℚ) < 1 := by
  intro whole
  have least : 0 ≤ whole := Int.floor_nonneg.mpr (by positivity)
  have most : whole < 2 ^ 53 := by
    rw [Int.floor_lt, div_lt_iff₀ (by positivity)]
    exact_mod_cast short
  have least : (0 : ℚ) ≤ whole := by exact_mod_cast least
  have most : (whole : ℚ) < 2 ^ 53 := by exact_mod_cast most
  constructor <;> linarith

theorem stream_getElem? (seed : Int) {count i : Nat} (inside : i < count)
    : ∃ state : Nat,
        (stream seed count)[i]? = some state
        ∧ (state : Int) = stateAt seed (i + 1)
        ∧ state < 2 ^ 64 := by
  refine ⟨_, draws_getElem? _ inside, (stateAt_eq seed (i + 1)).symm, ?_⟩
  rw [Function.iterate_succ_apply']
  exact next_lt _

theorem table?_natCast (seed : Int) (count : Nat) : table? seed count = some (table seed count) :=
  if_neg (Int.not_lt.mpr (Int.natCast_nonneg count))

/-- Each entry of a table is a multiple of `2 ^ -52` that the state of the generator determines,
and no operation that leads to it rounds. A shorter table is the beginning of a longer one, and
seeds that agree in their lower 64 bits have the same tables.
-/
theorem table_exact (seed : Int) (count : Nat)
    : ∃ entries,
        table? seed count = some entries
        ∧ entries.length = count
        ∧ (∀ i < count, ∃ state entry,
            let whole := ⌊(stateAt seed (i + 1) : ℚ) / 2 ^ 11⌋
            (stream seed count)[i]? = some state
            ∧ (state : Int) = stateAt seed (i + 1)
            ∧ entries[i]? = some entry
            ∧ entry = unit state * 2.0 - 1.0
            ∧ value entry = whole / 2 ^ 52 - 1
            ∧ DrawnExactly state whole
            ∧ -1 ≤ value entry ∧ value entry < 1)
        ∧ (∀ more : Nat, ∃ longer,
            table? seed (count + more : Nat) = some longer ∧ entries <+: longer)
        ∧ (∀ other, other ≡ seed [ZMOD 2 ^ 64] → table? other count = some entries) := by
  refine ⟨_, table?_natCast seed count, length_table seed count, ?_, ?_, ?_⟩
  · intro i inside
    obtain ⟨state, drawn, same, short⟩ := stream_getElem? seed inside
    have exact := drawnExactly_of_lt short
    have bounds := entry_bounds short
    rw [← same, Int.cast_natCast]
    refine ⟨state, _, drawn, rfl, ?_, rfl, exact.entry.same, exact, ?_⟩
    · rw [table, List.getElem?_map, drawn, Option.map_some]
    · rwa [exact.entry.same]
  · intro more
    exact ⟨_, table?_natCast seed _, (draws_isPrefix _ count more).map _⟩
  · intro other congruent
    have same : ofSeed other = ofSeed seed := congrArg Int.toNat congruent
    rw [table?_natCast, table, stream, same]
    rfl

end Wavetable.Random
