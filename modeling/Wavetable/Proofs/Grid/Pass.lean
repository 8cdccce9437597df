import Mathlib.Data.List.Basic
import Wavetable.Grid.Apply
import Wavetable.Proofs.Attempt
import Wavetable.Proofs.Grid.Clamp
import Wavetable.Proofs.Settings.Accepted

/-!
What a pass leaves in a grid. Every sample is computed from the grid as it was before, by the
formula at the place of the sample, and a pass over one frame leaves the others alone.
-/

namespace Wavetable.Grid

open Formula

def sampleAt? (grid : Grid) (frame index : Nat) : Option Float :=
  grid.frames[frame]?.bind fun samples => samples[index]?

/-- The samples before a pass bring together what has the same index. -/
theorem slots_getElem? (seed : Int) {frame selected : List Float} {n i : Nat}
    (framed : frame.length = n) (chosen : selected.length = n) (inside : i < n)
    : ∃ old sel rand,
        frame[i]? = some old ∧ selected[i]? = some sel ∧ (Random.table seed n)[i]? = some rand
        ∧ (slots seed frame selected)[i]? = some ⟨unitPosition n i, old, sel, rand⟩ := by
  have drawn : i < (Random.table seed n).length := by rwa [Random.length_table]
  refine ⟨_, _, _, List.getElem?_eq_getElem (framed ▸ inside),
    List.getElem?_eq_getElem (chosen ▸ inside), List.getElem?_eq_getElem drawn, ?_⟩
  subst framed
  have place : ((unitPositions frame.length).zip (frame.zip (selected.zip
        (Random.table seed frame.length))))[i]?
      = some (unitPosition frame.length i, frame[i], selected[i],
        (Random.table seed frame.length)[i]) := by
    simp [unitPositions, List.getElem?_zip_eq_some, inside]
  simp [slots, place]

theorem length_slots {seed : Int} {frame selected : List Float} {n : Nat}
    (framed : frame.length = n) (chosen : selected.length = n)
    : (slots seed frame selected).length = n := by
  simp [slots, unitPositions, framed, chosen, Random.length_table]

/-- The values for samples are those of the formula, one for each, by induction on the samples. -/
theorem evaluateSlots_getElem? {evaluator : Evaluator} {tree : Expr} {y z : Float}
    {places : List Slot} {xs : List Float}
    (evaluated : evaluateSlots evaluator tree y z places = .ok xs)
    : xs.length = places.length
      ∧ ∀ (i : Nat) (slot : Slot), places[i]? = some slot
          → ∃ v, evaluator.value (slot.context y z) tree = .ok v ∧ xs[i]? = some v := by
  induction places generalizing xs with
  | nil =>
      obtain rfl : [] = xs := by simpa [evaluateSlots] using evaluated
      simp
  | cons slot rest ih =>
      unfold evaluateSlots at evaluated
      split at evaluated
      · contradiction
      next x first =>
        split at evaluated
        · contradiction
        next others later =>
          obtain rfl : x :: others = xs := by simpa using evaluated
          obtain ⟨counted, valued⟩ := ih later
          refine ⟨by simp [counted], fun i place found => ?_⟩
          cases i with
          | zero =>
              obtain rfl : slot = place := by simpa using found
              exact ⟨x, first, rfl⟩
          | succ i => exact valued i place found

/-- The values for a frame are those of the formula at each index. -/
theorem evaluateFrame_getElem? {pass : Pass} {tree : Expr} {y z : Float}
    {frame selected xs : List Float} {n : Nat}
    (evaluated : evaluateFrame pass tree y z frame selected = .ok xs) (framed : frame.length = n)
    (chosen : selected.length = n)
    : xs.length = n
      ∧ ∀ i < n, ∃ old sel rand v,
          frame[i]? = some old ∧ selected[i]? = some sel
          ∧ (Random.table pass.seed n)[i]? = some rand
          ∧ pass.evaluator.value
              ⟨unitPosition n i * 2.0 - 1.0, unitPosition n i, y, z, old, sel, rand, none⟩ tree
            = .ok v
          ∧ xs[i]? = some v := by
  obtain ⟨counted, valued⟩ := evaluateSlots_getElem? evaluated
  refine ⟨counted.trans (length_slots framed chosen), fun i inside => ?_⟩
  obtain ⟨old, sel, rand, before, choice, drawn, slot⟩ :=
    slots_getElem? pass.seed framed chosen inside
  obtain ⟨v, value, found⟩ := valued i _ slot
  exact ⟨old, sel, rand, v, before, choice, drawn, value, found⟩

/-- The values for the frames from an index on are those for each frame at its position, by
induction on the frames.
-/
theorem evaluateFrames_getElem? {pass : Pass} {tree : Expr} {check : CancelCheck} {total : Nat}
    {selected : List Float} {first begun : Nat} {frames results : List (List Float)}
    (evaluated : evaluateFrames pass tree check total selected first frames
      = (.ok results, begun))
    : results.length = frames.length
      ∧ ∀ (t : Nat) (frame : List Float), frames[t]? = some frame
          → ∃ xs,
              evaluateFrame pass tree (unitPosition total (first + t))
                (centred (unitPosition total (first + t))) frame selected = .ok xs
              ∧ results[t]? = some xs := by
  induction frames generalizing first begun results with
  | nil =>
      obtain ⟨rfl, -⟩ : [] = results ∧ first = begun := by simpa [evaluateFrames] using evaluated
      simp
  | cons frame rest ih =>
      unfold evaluateFrames at evaluated
      split at evaluated
      · simp at evaluated
      next =>
        dsimp only at evaluated
        split at evaluated
        · simp at evaluated
        next xs here =>
          split at evaluated
          · simp at evaluated
          next others begun' later =>
            obtain ⟨rfl, -⟩ : xs :: others = results ∧ begun' = begun := by
              simpa using evaluated
            obtain ⟨counted, valued⟩ := ih later
            refine ⟨by simp [counted], fun t place found => ?_⟩
            cases t with
            | zero =>
                obtain rfl : frame = place := by simpa using found
                exact ⟨xs, here, rfl⟩
            | succ t =>
                -- the frames that are left begin at the next index
                rw [← Nat.add_assoc, Nat.add_right_comm]
                exact valued t place found

/-- A selection that passes its check is that of a frame of the grid, with a positive count. -/
theorem checkSelection_ok {grid : Grid} {selected count : Int} {s n : Nat}
    (passed : checkSelection grid selected count = .ok (s, n))
    : selected = s ∧ s < grid.frameCount ∧ count = n ∧ 1 ≤ n := by
  unfold checkSelection at passed
  split at passed
  · contradiction
  next =>
    split at passed
    · contradiction
    next =>
      obtain ⟨rfl, rfl⟩ : selected.toNat = s ∧ count.toNat = n := by simpa using passed
      omega

/-- The frame that passes its check is the selected one, of the given length. -/
theorem checkFrame_ok {grid : Grid} {selected count : Int} {s : Nat} {frame : List Float}
    (passed : checkFrame grid selected count = .ok (s, frame))
    : selected = s ∧ grid.frames[s]? = some frame ∧ count = frame.length ∧ 1 ≤ frame.length := by
  simp only [checkFrame, bind_eq_ok, Prod.exists] at passed
  obtain ⟨index, n, selection, passed⟩ := passed
  obtain ⟨rfl, inside, rfl, positive⟩ := checkSelection_ok selection
  split at passed
  next framed =>
    obtain ⟨rfl, rfl⟩ : index = s ∧ grid.frames.getD index [] = frame := by
      simpa [pure_eq_ok] using passed
    have found : grid.frames[index]? = some (grid.frames.getD index []) := by
      simp [List.getElem?_eq_getElem inside]
    exact ⟨rfl, found, by rw [framed], framed ▸ positive⟩
  next => exact absurd passed throw_ne_ok

/-- Where all frames pass their checks, each has the given length, and the selected one is found. -/
theorem checkFrames_ok {grid : Grid} {selected count : Int} {frame : List Float}
    (passed : checkFrames grid selected count = .ok frame)
    : ∃ s n : Nat, selected = s ∧ grid.frames[s]? = some frame ∧ count = n ∧ 1 ≤ n
        ∧ ∀ frame ∈ grid.frames, frame.length = n := by
  simp only [checkFrames, bind_eq_ok, Prod.exists] at passed
  obtain ⟨s, n, selection, passed⟩ := passed
  obtain ⟨rfl, inside, rfl, positive⟩ := checkSelection_ok selection
  split at passed
  next => exact absurd passed throw_ne_ok
  next uniform =>
    obtain rfl : grid.frames.getD s [] = frame := by simpa [pure_eq_ok] using passed
    have found : grid.frames[s]? = some (grid.frames.getD s []) := by
      simp [List.getElem?_eq_getElem inside]
    refine ⟨s, n, rfl, found, rfl, positive, fun frame member => ?_⟩
    have same := List.findIdx?_eq_none_iff.mp uniform frame member
    simpa using same

/-- A new table is held as the grid is. -/
theorem storage_of_expand {grid table : Grid} {count : Int} {frameCount : Settings.Numeric}
    (made : expand grid count frameCount = .ok table)
    : table.storage = grid.storage := by
  unfold expand at made
  split at made
  · contradiction
  next =>
    split at made
    · contradiction
    next =>
      obtain rfl := Except.ok.inj made
      rfl

/-- Values are written into lists and blocks of doubles as they are, each within finite bounds. -/
theorem written_getElem? (pass : Pass) {storage : Storage} {xs : List Float} {i : Nat} {v : Float}
    (exact : storage ≠ .singles) (finiteLow : pass.low.isFinite = true)
    (finiteHigh : pass.high.isFinite = true) (found : xs[i]? = some v)
    : (written pass storage xs)[i]?
      = some (limit pass.low pass.high (if v.isNaN then 0.0 else v)) := by
  -- only single precision rounds what it holds
  have held : ∀ x, storage.hold x = x := by
    intro x
    cases storage <;> first | rfl | contradiction
  simp [written, found, held, clamp_eq_limit finiteLow finiteHigh]

/-- The pass that settings describe, with an evaluator that the caller may choose. -/
def passOf (settings : Settings) (evaluator : Evaluator) : Pass :=
  { Pass.ofSettings settings with evaluator }

/-- Sample `i` of frame `t` after a pass is the value of the formula at its place, with `s` for the
selected frame, `n` for the count of samples and `y` and `z` for the position of the frame: what
the formula sees of the grid is as it was before. NaN counts as zero, and the bounds of the
settings limit the value.
-/
def Computed (settings : Settings) (evaluator : Evaluator) (tree : Expr) (before after : Grid)
    (s n : Nat) (y z : Float) (t i : Nat) : Prop :=
  let w := if n = 1 then 0.5 else Float.ofNat i / Float.ofNat (n - 1)
  ∃ old sel rand v,
    sampleAt? before t i = some old
    ∧ sampleAt? before s i = some sel
    ∧ (Random.table settings.randomSeed n)[i]? = some rand
    ∧ evaluator.value
        { w := w, x := w * 2.0 - 1.0, y := y, z := z, input := old, selected := sel,
          random := rand, q := none } tree
      = .ok v
    ∧ sampleAt? after t i
      = some (limit settings.clampLow.toFloat settings.clampHigh.toFloat
          (if v.isNaN then 0.0 else v))

section
variable {values : Json.Members} {settings : Settings} {evaluator : Evaluator} {tree : Expr}
  {grid after : Grid} {selected count : Int}

/-- The values of a frame are computed where they are written into it. -/
theorem computed_of_evaluateFrame {before after : Grid} {s n t : Nat} {y z : Float}
    {frame chosen xs : List Float} (accepted : Settings.ofMembers values = .ok settings)
    (exact : before.storage ≠ .singles) (found : before.frames[t]? = some frame)
    (found' : before.frames[s]? = some chosen) (framed : frame.length = n)
    (framed' : chosen.length = n)
    (evaluated : evaluateFrame (passOf settings evaluator) tree y z frame chosen
      = .ok xs)
    (replaced : after.frames[t]?
      = some (written (passOf settings evaluator) before.storage xs))
    : ∀ i < n, Computed settings evaluator tree before after s n y z t i := by
  intro i inside
  have checked := Settings.ofMembers_accepted accepted
  obtain ⟨-, valued⟩ := evaluateFrame_getElem? evaluated framed framed'
  obtain ⟨old, sel, rand, v, here, there, drawn, value, computed⟩ := valued i inside
  have before_t : sampleAt? before t i = some old := by simp [sampleAt?, found, here]
  have before_s : sampleAt? before s i = some sel := by simp [sampleAt?, found', there]
  refine ⟨old, sel, rand, v, before_t, before_s, drawn, value, ?_⟩
  rw [sampleAt?, replaced, Option.bind_some]
  exact written_getElem? (passOf settings evaluator) exact checked.finiteLow checked.finiteHigh
    computed

/-- A pass over the selected frame computes its samples, and leaves the other frames alone. -/
theorem applySingle_computed (accepted : Settings.ofMembers values = .ok settings)
    (exact : grid.storage ≠ .singles)
    (applied : applySingle (passOf settings evaluator) tree grid selected count
      = .ok after)
    : ∃ s n : Nat, selected = s ∧ s < grid.frameCount ∧ count = n ∧ 1 ≤ n
        ∧ after.frameCount = grid.frameCount
        ∧ (∃ frame, after.frames[s]? = some frame ∧ frame.length = n)
        ∧ (∀ t, t ≠ s → after.frames[t]? = grid.frames[t]?)
        ∧ ∀ i < n, Computed settings evaluator tree grid after s n 0.0 0.0 s i := by
  simp only [applySingle, bind_eq_ok, Prod.exists] at applied
  obtain ⟨s, frame, passed, applied⟩ := applied
  obtain ⟨rfl, found, rfl, positive⟩ := checkFrame_ok passed
  have inside : s < grid.frames.length := List.getElem?_eq_some_iff.mp found |>.1
  split at applied
  · exact absurd applied throw_ne_ok
  next xs evaluated =>
    obtain rfl := pure_eq_ok.mp applied
    have counted := (evaluateFrame_getElem? evaluated rfl rfl).1
    have replaced : ∀ frame', (grid.frames.set s frame')[s]? = some frame' := by
      intro frame'
      exact List.getElem?_set_self inside
    refine ⟨s, frame.length, rfl, inside, rfl, positive, by simp [frameCount], ?_, ?_, ?_⟩
    · exact ⟨_, replaced _, by simp [written, counted]⟩
    · intro t other
      exact List.getElem?_set_ne other.symm
    · exact computed_of_evaluateFrame accepted exact found found rfl rfl evaluated (replaced _)

/-- A pass over all frames computes their samples. -/
theorem applyMulti_computed {check : CancelCheck} {asked : Nat}
    (accepted : Settings.ofMembers values = .ok settings) (exact : grid.storage ≠ .singles)
    (applied : applyMulti (passOf settings evaluator) tree check grid selected
      count = (.ok after, asked))
    : ∃ s n : Nat, selected = s ∧ s < grid.frameCount ∧ count = n ∧ 1 ≤ n
        ∧ after.frameCount = grid.frameCount
        ∧ (∀ frame ∈ grid.frames, frame.length = n)
        ∧ (∀ frame ∈ after.frames, frame.length = n)
        ∧ ∀ t < grid.frameCount, ∀ i < n,
            let y := unitPosition grid.frameCount t
            Computed settings evaluator tree grid after s n y (y * 2.0 - 1.0) t i := by
  unfold applyMulti at applied
  split at applied
  · simp at applied
  next chosen passed =>
    obtain ⟨s, n, rfl, found, rfl, positive, uniform⟩ := checkFrames_ok passed
    have inside : s < grid.frames.length := List.getElem?_eq_some_iff.mp found |>.1
    have framed : chosen.length = n := uniform chosen (List.mem_of_getElem? found)
    split at applied
    · simp at applied
    next results begun evaluated =>
      obtain ⟨counted, valued⟩ := evaluateFrames_getElem? evaluated
      obtain ⟨rfl, -⟩ := (Prod.mk.inj applied).imp_left Except.ok.inj
      -- every frame is evaluated before any of them is replaced
      have each : ∀ t < grid.frameCount, ∃ frame xs,
          grid.frames[t]? = some frame ∧ frame.length = n
          ∧ evaluateFrame (passOf settings evaluator) tree (unitPosition grid.frameCount (0 + t))
              (centred (unitPosition grid.frameCount (0 + t))) frame chosen = .ok xs
          ∧ results[t]? = some xs := by
        intro t here
        have frame := List.getElem?_eq_getElem here
        obtain ⟨xs, result⟩ := valued t _ frame
        exact ⟨_, xs, frame, uniform _ (List.getElem_mem here), result⟩
      refine ⟨s, n, rfl, inside, rfl, positive, by simp [frameCount, counted], uniform, ?_, ?_⟩
      · intro samples member
        obtain ⟨xs, result, rfl⟩ := List.mem_map.mp member
        obtain ⟨t, position, rfl⟩ := List.getElem_of_mem result
        obtain ⟨frame, xs, -, length, values, found⟩ := each t (lt_of_lt_of_eq position counted)
        obtain rfl : results[t] = xs := by simpa [position] using found
        simpa [written] using (evaluateFrame_getElem? values length framed).1
      · intro t here
        obtain ⟨frame, xs, place, length, values, found'⟩ := each t here
        rw [Nat.zero_add] at values
        exact computed_of_evaluateFrame accepted exact place found length framed values
          (by simp [found'])

end

end Wavetable.Grid
