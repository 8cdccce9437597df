import Wavetable.Proofs.Grid.Bounds
import Wavetable.Proofs.Grid.Cancellation
import Wavetable.Proofs.Grid.Targets
import Wavetable.Proofs.Number.Difference

/-!
The formula `in`, which gives each sample as it was. A pass with it limits the samples and does
nothing else, so samples within the bounds of the settings stay, and a second pass changes nothing.
-/

namespace Wavetable.Grid

open Formula Number

-----------------------------------------------------------------------------------------
-- Limiting twice
-----------------------------------------------------------------------------------------

section
variable {low high x : Float} (finiteLow : low.isFinite = true) (finiteHigh : high.isFinite = true)

include finiteLow finiteHigh

/-- What lies between the bounds stays. -/
theorem clamp_of_between (number : x.isNaN = false) (above : low ≤ x) (below : x ≤ high)
    : clamp low high x = x := by
  have notBelow : ¬ x < low := (le_iff_not_lt number (isNaN_of_isFinite finiteLow)).mp above
  have notAbove : ¬ x > high := (le_iff_not_lt (isNaN_of_isFinite finiteHigh) number).mp below
  have same : (if x.isNaN then 0.0 else x) = x := if_neg (Bool.eq_false_iff.mp number)
  rw [clamp_eq_limit finiteLow finiteHigh, same, limit, if_neg notBelow, if_neg notAbove]

theorem clamp_clamp (ordered : low ≤ high) (x : Float)
    : clamp low high (clamp low high x) = clamp low high x := by
  obtain ⟨finite, above, below⟩ := clamp_between finiteLow finiteHigh ordered x
  exact clamp_of_between finiteLow finiteHigh (isNaN_of_isFinite finite) above below

end

/-- The sample of a number by the bounds of some settings. -/
def limited (settings : Settings) (x : Float) : Float :=
  clamp settings.clampLow.toFloat settings.clampHigh.toFloat x

section
variable {values : Json.Members} {settings : Settings}
  (accepted : Settings.ofMembers values = .ok settings)

include accepted

/-- Samples within the exact bounds of the settings stay. A sample is a number that settings can
give too, so it is in the same order with the doubles that the bounds are converted to.
-/
theorem limited_of_withinBounds {x : Float} (within : WithinBounds settings x)
    : limited settings x = x := by
  have checked := Settings.ofMembers_accepted accepted
  have finiteLow := checked.finiteLow
  have finiteHigh := checked.finiteHigh
  have number := isNaN_of_isFinite within.finite
  have above : settings.clampLow.toFloat ≤ (Settings.Numeric.real x).toFloat :=
    Settings.Numeric.toFloat_le finiteLow within.finite within.low
  have below : (Settings.Numeric.real x).toFloat ≤ settings.clampHigh.toFloat :=
    Settings.Numeric.toFloat_le within.finite finiteHigh within.high
  exact clamp_of_between finiteLow finiteHigh number above below

theorem limited_between (x : Float)
    : (limited settings x).isFinite = true
      ∧ settings.clampLow.toFloat ≤ limited settings x
      ∧ limited settings x ≤ settings.clampHigh.toFloat := by
  have checked := Settings.ofMembers_accepted accepted
  exact clamp_between checked.finiteLow checked.finiteHigh checked.low_le_high x

theorem map_limited_limited (frame : List Float)
    : (frame.map (limited settings)).map (limited settings) = frame.map (limited settings) := by
  have checked := Settings.ofMembers_accepted accepted
  rw [List.map_map]
  exact List.map_congr_left fun x _ =>
    clamp_clamp checked.finiteLow checked.finiteHigh checked.low_le_high x

end

-----------------------------------------------------------------------------------------
-- The values of the formula
-----------------------------------------------------------------------------------------

/-- The formula that gives each sample as it was. -/
def identity : Expr :=
  .var "in"

theorem evaluateSlots_identity (evaluator : Evaluator) (y z : Float) (places : List Slot)
    : evaluateSlots evaluator identity y z places = .ok (places.map (·.input)) := by
  induction places with
  | nil => rfl
  | cons slot rest ih =>
      have value : evaluator.value (slot.context y z) identity = .ok slot.input := rfl
      simp only [evaluateSlots, value, ih, List.map_cons]

section
variable (pass : Pass) {frame selected : List Float} {y z : Float}

theorem evaluateFrame_identity (same : selected.length = frame.length)
    : evaluateFrame pass identity y z frame selected = .ok frame := by
  have seen : (slots pass.seed frame selected).map (·.input) = frame := by
    refine List.ext_getElem? fun i => ?_
    rw [List.getElem?_map]
    rcases Nat.lt_or_ge i frame.length with inside | outside
    · obtain ⟨old, sel, rand, here, -, -, slot⟩ := slots_getElem? pass.seed rfl same inside
      rw [slot, here]
      rfl
    · have counted : (slots pass.seed frame selected).length = frame.length :=
        length_slots rfl same
      rw [List.getElem?_eq_none outside, List.getElem?_eq_none (counted ▸ outside)]
      rfl
  rw [evaluateFrame, evaluateSlots_identity, seen]

/-- All frames stay as they are, unless the caller stops the pass, by induction on the frames. -/
theorem evaluateFrames_identity (check : CancelCheck) (total : Nat) {frames : List (List Float)}
    (uniform : ∀ frame ∈ frames, selected.length = frame.length) (first : Nat)
    : (∃ begun, evaluateFrames pass identity check total selected first frames
          = (.ok frames, begun))
      ∨ ∃ done begun,
          CancelCheck.stops check done = true
          ∧ evaluateFrames pass identity check total selected first frames
            = (.error (.cancelled done total), begun) := by
  induction frames generalizing first with
  | nil => exact .inl ⟨first, rfl⟩
  | cons frame rest ih =>
      obtain ⟨here, others⟩ := List.forall_mem_cons.mp uniform
      unfold evaluateFrames
      cases stops : CancelCheck.stops check first with
      | true => exact .inr ⟨first, first + 1, stops, rfl⟩
      | false =>
          simp only [Bool.false_eq_true, if_false, evaluateFrame_identity pass here]
          obtain ⟨begun, later⟩ | ⟨done, begun, stops', later⟩ := ih others (first + 1)
          · exact .inl ⟨begun, by rw [later]⟩
          · exact .inr ⟨done, begun, stops', by rw [later]⟩

end

-----------------------------------------------------------------------------------------
-- Grids
-----------------------------------------------------------------------------------------

/-- A grid in which the samples of some frames are limited. -/
def limitWhere (settings : Settings) (rewritten : Nat → Prop) [DecidablePred rewritten]
    (grid : Grid) : Grid :=
  { grid with
    frames := grid.frames.mapIdx fun t frame =>
      if rewritten t then frame.map (limited settings) else frame }

/-- What a pass with the formula makes of a grid. The frames that it rewrites hold their limited
samples, and all others are as they were. Samples within the bounds of the settings are kept.
-/
structure Projects (settings : Settings) (rewritten : Nat → Prop) (before after : Grid)
    : Prop where
  shape : after.frames.map List.length = before.frames.map List.length
  others : ∀ t, ¬ rewritten t → after.frames[t]? = before.frames[t]?
  samples
    : ∀ t i, rewritten t → sampleAt? after t i = (sampleAt? before t i).map (limited settings)
  between
    : ∀ t i x, rewritten t
      → sampleAt? after t i = some x
      → x.isFinite = true ∧ settings.clampLow.toFloat ≤ x ∧ x ≤ settings.clampHigh.toFloat
  kept
    : ∀ t i x, sampleAt? before t i = some x
      → WithinBounds settings x
      → sampleAt? after t i = some x

section
variable (settings : Settings) (rewritten : Nat → Prop) [DecidablePred rewritten]

theorem frames_limitWhere (grid : Grid) (t : Nat)
    : (limitWhere settings rewritten grid).frames[t]?
      = grid.frames[t]?.map fun frame =>
          if rewritten t then frame.map (limited settings) else frame := by
  simp [limitWhere]

theorem shape_limitWhere (grid : Grid)
    : (limitWhere settings rewritten grid).frames.map List.length
      = grid.frames.map List.length := by
  refine List.ext_getElem? fun t => ?_
  rw [List.getElem?_map, List.getElem?_map, frames_limitWhere]
  cases grid.frames[t]? with
  | none => rfl
  | some frame => by_cases here : rewritten t <;> simp [here]

variable {settings rewritten}

theorem sampleAt?_limitWhere (grid : Grid) {t : Nat} (here : rewritten t) (i : Nat)
    : sampleAt? (limitWhere settings rewritten grid) t i
      = (sampleAt? grid t i).map (limited settings) := by
  rw [sampleAt?, sampleAt?, frames_limitWhere]
  cases grid.frames[t]? with
  | none => rfl
  | some frame => simp [here]

/-- One frame is limited where its limited samples take its place. -/
theorem set_eq_limitWhere {grid : Grid} {s : Nat} {frame : List Float}
    (found : grid.frames[s]? = some frame)
    : { grid with frames := grid.frames.set s (frame.map (limited settings)) }
      = limitWhere settings (s = ·) grid := by
  obtain ⟨inside, -⟩ := List.getElem?_eq_some_iff.mp found
  have same : grid.frames.set s (frame.map (limited settings))
      = (limitWhere settings (s = ·) grid).frames := by
    refine List.ext_getElem? fun t => ?_
    rw [frames_limitWhere]
    by_cases here : s = t
    · subst here
      rw [List.getElem?_set_self inside, found]
      simp
    · rw [List.getElem?_set_ne here]
      simp [here]
  rw [same]
  rfl

variable {values : Json.Members} (accepted : Settings.ofMembers values = .ok settings)

include accepted

/-- Limiting loses nothing that lies within the bounds. -/
theorem projects_limitWhere (grid : Grid)
    : Projects settings rewritten grid (limitWhere settings rewritten grid) := by
  constructor
  case shape => exact shape_limitWhere settings rewritten grid
  case others =>
    intro t other
    simp [frames_limitWhere, other]
  case samples => exact fun t i here => sampleAt?_limitWhere grid here i
  case between =>
    intro t i x here found
    rw [sampleAt?_limitWhere grid here, Option.map_eq_some_iff] at found
    obtain ⟨old, -, rfl⟩ := found
    exact limited_between accepted old
  case kept =>
    intro t i x found within
    by_cases here : rewritten t
    · rw [sampleAt?_limitWhere grid here, found, Option.map_some,
        limited_of_withinBounds accepted within]
    · rw [← found]
      simp [sampleAt?, frames_limitWhere, here]

theorem limitWhere_limitWhere (grid : Grid)
    : limitWhere settings rewritten (limitWhere settings rewritten grid)
      = limitWhere settings rewritten grid := by
  have twice : (limitWhere settings rewritten (limitWhere settings rewritten grid)).frames
      = (limitWhere settings rewritten grid).frames := by
    refine List.ext_getElem? fun t => ?_
    rw [frames_limitWhere, frames_limitWhere]
    cases grid.frames[t]? with
    | none => rfl
    | some frame => by_cases here : rewritten t <;> simp only [Option.map_some, here, if_true,
        if_false, map_limited_limited accepted]
  exact congrArg (Grid.mk grid.storage) twice

end

-----------------------------------------------------------------------------------------
-- Passes
-----------------------------------------------------------------------------------------

/-- A frame of the grid is selected, and it has the given length, which is positive. -/
structure FitsFrame (grid : Grid) (selected count : Int) (s : Nat) (frame : List Float)
    : Prop where
  selects : selected = s
  found : grid.frames[s]? = some frame
  counted : count = frame.length
  positive : 1 ≤ frame.length

/-- The checks of a pass over one frame accept exactly what fits. -/
theorem checkFrame_ok_iff {grid : Grid} {selected count : Int} {s : Nat} {frame : List Float}
    : checkFrame grid selected count = .ok (s, frame) ↔ FitsFrame grid selected count s frame := by
  constructor
  · intro passed
    obtain ⟨selects, found, counted, positive⟩ := checkFrame_ok passed
    exact ⟨selects, found, counted, positive⟩
  · rintro ⟨rfl, found, rfl, positive⟩
    have inside : s < grid.frames.length := (List.getElem?_eq_some_iff.mp found).1
    have selection : checkSelection grid s frame.length = .ok (s, frame.length) := by
      have inside : (s : Int) < grid.frameCount := by exact_mod_cast inside
      rw [checkSelection, if_neg (by omega), if_neg (by omega)]
      rfl
    simp [checkFrame, selection, found, bind, Except.bind, pure, Except.pure]

/-- What fits depends on the lengths of the frames alone. -/
theorem FitsFrame.of_shape {grid after : Grid} {selected count : Int} {s : Nat}
    {frame : List Float} (fits : FitsFrame grid selected count s frame)
    (shape : after.frames.map List.length = grid.frames.map List.length)
    : ∃ frame', FitsFrame after selected count s frame' := by
  obtain ⟨selects, found, counted, positive⟩ := fits
  have lengths := congrArg (·[s]?) shape
  simp only [List.getElem?_map, found, Option.map_some, Option.map_eq_some_iff] at lengths
  obtain ⟨frame', found', same⟩ := lengths
  exact ⟨frame', selects, found', by omega, by omega⟩

theorem Fits.of_shape {grid after : Grid} {selected count : Int} (fits : Fits grid selected count)
    (shape : after.frames.map List.length = grid.frames.map List.length)
    : Fits after selected count := by
  obtain ⟨low, high, positive, uniform⟩ := fits
  have counted : after.frameCount = grid.frameCount := by
    simpa [frameCount] using congrArg List.length shape
  refine ⟨low, counted ▸ high, positive, fun frame member => ?_⟩
  have measured : frame.length ∈ grid.frames.map List.length :=
    shape ▸ List.mem_map_of_mem member
  obtain ⟨frame', member', same⟩ := List.mem_map.mp measured
  rw [← same]
  exact uniform frame' member'

theorem written_eq_map_limited {storage : Storage} (exact : storage ≠ .singles)
    (settings : Settings) (evaluator : Evaluator) (xs : List Float)
    : written (passOf settings evaluator) storage xs = xs.map (limited settings) := by
  have held : ∀ x, storage.hold x = x := by
    intro x
    cases storage <;> first | rfl | contradiction
  simp only [written, held]
  rfl

section
variable (settings : Settings) (evaluator : Evaluator) {grid : Grid} {selected count : Int}
  (exact : grid.storage ≠ .singles)

include exact

/-- A pass over one frame limits it. -/
theorem applySingle_identity {s : Nat} {frame : List Float}
    (fits : FitsFrame grid selected count s frame)
    : applySingle (passOf settings evaluator) identity grid selected count
      = .ok (limitWhere settings (s = ·) grid) := by
  unfold applySingle
  simp only [checkFrame_ok_iff.mpr fits, bind, Except.bind, evaluateFrame_identity _ rfl,
    written_eq_map_limited exact, set_eq_limitWhere fits.found]
  rfl

/-- A pass over all frames limits them, unless the caller stops it. -/
theorem applyMulti_identity (fits : Fits grid selected count) (check : CancelCheck)
    : (∃ asked, applyMulti (passOf settings evaluator) identity check grid selected count
          = (.ok (limitWhere settings (fun _ => True) grid), asked))
      ∨ ∃ done asked,
          CancelCheck.stops check done = true
          ∧ applyMulti (passOf settings evaluator) identity check grid selected count
            = (.error (.cancelled done grid.frameCount), asked) := by
  obtain ⟨chosen, passed⟩ := checkFrames_ok_iff.mpr fits
  obtain ⟨s, n, -, found, -, -, uniform⟩ := checkFrames_ok passed
  have same : ∀ frame ∈ grid.frames, chosen.length = frame.length := fun frame member =>
    (uniform chosen (List.mem_of_getElem? found)).trans (uniform frame member).symm
  have limits : grid.frames.map (written (passOf settings evaluator) grid.storage)
      = (limitWhere settings (fun _ => True) grid).frames := by
    have whole : written (passOf settings evaluator) grid.storage = List.map (limited settings) :=
      funext (written_eq_map_limited exact settings evaluator)
    refine List.ext_getElem? fun t => ?_
    rw [frames_limitWhere, List.getElem?_map, whole]
    simp only [if_true]
  unfold applyMulti
  rw [passed]
  obtain ⟨begun, ended⟩ | ⟨done, begun, stops, ended⟩ :=
    evaluateFrames_identity (passOf settings evaluator) check grid.frameCount same 0
  · refine .inl ⟨polls check begun, ?_⟩
    simp only [ended, limits]
    rfl
  · refine .inr ⟨done, polls check begun, stops, ?_⟩
    simp only [ended]

end

-----------------------------------------------------------------------------------------
-- Frames that several grids share
-----------------------------------------------------------------------------------------

namespace Work

/-- Frames that are written at some addresses are found there, whether or not the addresses are
distinct, if each is written the same every time. By induction on the addresses.
-/
theorem run_writeAll_map (addresses : List Nat) (row : Nat → List Float) (heap : Heap)
    : (writeAll addresses (addresses.map row)).run heap
      = (.ok (), ⟨heap.frames.mapIdx fun address frame =>
          if address ∈ addresses then row address else frame, heap.polls⟩) := by
  induction addresses generalizing heap with
  | nil =>
      have same : heap.frames.mapIdx (fun _ frame => frame) = heap.frames :=
        List.ext_getElem? fun address => by simp
      simp [writeAll, same]
  | cons address rest ih =>
      have same : (heap.frames.set address (row address)).mapIdx (fun other frame =>
            if other ∈ rest then row other else frame)
          = heap.frames.mapIdx fun other frame =>
              if other ∈ address :: rest then row other else frame := by
        refine List.ext_getElem? fun other => ?_
        rw [List.getElem?_mapIdx, List.getElem?_mapIdx, List.getElem?_set]
        by_cases here : address = other
        · subst here
          by_cases inside : address < heap.frames.length <;> simp [inside]
        · simp [here, Ne.symm here]
      rw [List.map_cons, writeAll, run_bind, run_write]
      dsimp only
      rw [ih, same]

section
variable (settings : Settings) (evaluator : Evaluator) {held : Held} {frames : List (List Float)}
  {selected count : Int} (exact : held.storage ≠ .singles)

include exact

/-- Where one frame is limited in place, it is so in all grids that share it. -/
theorem run_replaceSelected_identity {s : Nat} {frame : List Float}
    (fits : FitsFrame (held.grid frames) selected count s frame)
    : ∃ address,
        held.addresses[s]? = some address
        ∧ (replaceSelected (passOf settings evaluator) identity held selected count).run ⟨frames, 0⟩
          = (.ok (), ⟨(limitWhere settings (address = ·) ⟨held.storage, frames⟩).frames, 0⟩) := by
  obtain ⟨address, here, placed⟩ : ∃ address, held.addresses[s]? = some address
      ∧ frames.getD address [] = frame := by
    simpa [Held.grid] using fits.found
  -- a frame that was found empty would not fit
  have found : (Grid.mk held.storage frames).frames[address]? = some frame := by
    change frames[address]? = some frame
    cases look : frames[address]? with
    | none =>
        have empty : frame = [] := by simpa [look] using placed.symm
        have positive := fits.positive
        simp [empty] at positive
    | some other => simpa [look] using placed
  have limits : frames.set address (frame.map (limited settings))
      = (limitWhere settings (address = ·) ⟨held.storage, frames⟩).frames :=
    congrArg Grid.frames (set_eq_limitWhere found)
  refine ⟨address, here, ?_⟩
  simp only [replaceSelected, run_bind, run_snapshot, run_attempt, run_onCopy,
    Procedure.compute, Procedure.run_attempt, checkFrame_ok_iff.mpr fits,
    evaluateFrame_identity _ rfl, Except.mapError, run_writeAt here,
    written_eq_map_limited exact, limits]

/-- Where all frames of a grid are limited in place, they are so in all grids that share some. -/
theorem run_replaceAll_identity (fits : Fits (held.grid frames) selected count)
    (check : CancelCheck)
    : (∃ asked,
          (replaceAll (passOf settings evaluator) identity check held selected count).run
              ⟨frames, 0⟩
            = (.ok (), ⟨(limitWhere settings (· ∈ held.addresses) ⟨held.storage, frames⟩).frames,
                asked⟩))
      ∨ ∃ done asked,
          CancelCheck.stops check done = true
          ∧ (replaceAll (passOf settings evaluator) identity check held selected count).run
              ⟨frames, 0⟩
            = (.error (.cancelled done (held.grid frames).frameCount), ⟨frames, asked⟩) := by
  obtain ⟨chosen, passed⟩ := checkFrames_ok_iff.mpr fits
  obtain ⟨s, n, -, found, -, -, uniform⟩ := checkFrames_ok passed
  have same : ∀ frame ∈ (held.grid frames).frames, chosen.length = frame.length :=
    fun frame member =>
      (uniform chosen (List.mem_of_getElem? found)).trans (uniform frame member).symm
  have start : polls check 0 = 0 := by simp [polls]
  have computed := Procedure.run_computeAll (passOf settings evaluator) identity check
    (held.grid frames).frameCount chosen 0 (held.grid frames).frames (held.grid frames)
  rw [start] at computed
  simp only [replaceAll, run_bind, run_snapshot, run_attempt, run_onCopy, passed, computed]
  obtain ⟨begun, ended⟩ | ⟨done, begun, stops, ended⟩ :=
    evaluateFrames_identity (passOf settings evaluator) check (held.grid frames).frameCount same 0
  · refine .inl ⟨polls check begun, ?_⟩
    let row := fun address => (frames.getD address []).map (limited settings)
    have rows : (held.grid frames).frames.map (written (passOf settings evaluator) held.storage)
        = held.addresses.map row := by
      have whole : written (passOf settings evaluator) held.storage = List.map (limited settings) :=
        funext (written_eq_map_limited exact settings evaluator)
      rw [whole, Held.grid, List.map_map]
      rfl
    have limits : (frames.mapIdx fun address frame =>
          if address ∈ held.addresses then row address else frame)
        = (limitWhere settings (· ∈ held.addresses) ⟨held.storage, frames⟩).frames := by
      refine List.ext_getElem? fun address => ?_
      rw [List.getElem?_mapIdx, frames_limitWhere]
      cases look : frames[address]? <;> simp [row, look]
    simp only [ended, rows, run_writeAll_map, limits]
  · exact .inr ⟨done, polls check begun, stops, by simp only [ended]⟩

end

end Work

/-- The frames of a held grid have the lengths of the frames at their addresses. -/
theorem Held.shape_grid (held : Held) {after frames : List (List Float)}
    (shape : after.map List.length = frames.map List.length)
    : (held.grid after).frames.map List.length = (held.grid frames).frames.map List.length := by
  simp only [Held.grid, List.map_map]
  refine List.map_congr_left fun address _ => ?_
  have lengths := congrArg (fun lengths => (lengths[address]?).getD 0) shape
  simp only [List.getElem?_map] at lengths
  simp only [Function.comp_apply, List.getD_eq_getElem?_getD]
  cases here : after[address]? <;> cases there : frames[address]? <;> simp_all

-----------------------------------------------------------------------------------------
-- The formula as a projection
-----------------------------------------------------------------------------------------

section
variable {values : Json.Members} {settings : Settings}
  (accepted : Settings.ofMembers values = .ok settings) {evaluator : Evaluator}
  {formula : Compiled} (reads : formula.tree = identity) {selected count : Int}

include accepted

section
variable {grid : Grid} (exact : grid.storage ≠ .singles)

include reads exact

theorem single_projects {s : Nat} {frame : List Float}
    (fits : FitsFrame grid selected count s frame)
    : let single := fun grid =>
        reportSingle (passOf settings evaluator) formula grid selected count
      (single grid).result = .ok none
      ∧ Projects settings (s = ·) grid (single grid).grid
      ∧ single (single grid).grid = single grid := by
  intro single
  have ran : ∀ before frame, before.storage ≠ .singles
      → FitsFrame before selected count s frame
      → single before = ⟨.ok none, limitWhere settings (s = ·) before, 0⟩ := by
    intro before frame exact fits
    simp only [single, reportSingle, reads, applySingle_identity settings evaluator exact fits]
  obtain ⟨frame', again⟩ := fits.of_shape (shape_limitWhere settings (s = ·) grid)
  have once := ran grid frame exact fits
  have twice := ran (limitWhere settings (s = ·) grid) frame' exact again
  rw [limitWhere_limitWhere accepted] at twice
  rw [once]
  exact ⟨rfl, projects_limitWhere accepted grid, twice⟩

theorem multi_projects (fits : Fits grid selected count) (check : CancelCheck)
    : let multi := fun check grid =>
        reportMulti (passOf settings evaluator) formula check grid selected count
      ((multi check grid).result = .ok none
        ∧ Projects settings (fun _ => True) grid (multi check grid).grid
        ∧ ∀ check', (multi check' (multi check grid).grid).grid = (multi check grid).grid)
      ∨ ∃ done,
          CancelCheck.stops check done = true
          ∧ (multi check grid).result = .error (.cancelled done grid.frameCount)
          ∧ (multi check grid).grid = grid := by
  intro multi
  have ran : ∀ check before, before.storage ≠ .singles
      → Fits before selected count
      → (∃ asked, multi check before
            = ⟨.ok none, limitWhere settings (fun _ => True) before, asked⟩)
        ∨ ∃ done asked,
            CancelCheck.stops check done = true
            ∧ multi check before
              = ⟨.error (.cancelled done before.frameCount), before, asked⟩ := by
    intro check before exact fits
    obtain ⟨asked, applied⟩ | ⟨done, asked, stops, applied⟩ :=
      applyMulti_identity settings evaluator exact fits check
    · exact .inl ⟨asked, by simp only [multi, reportMulti, reads, applied]⟩
    · exact .inr ⟨done, asked, stops, by simp only [multi, reportMulti, reads, applied]⟩
  obtain ⟨asked, once⟩ | ⟨done, asked, stops, once⟩ := ran check grid exact fits
  · left
    rw [once]
    refine ⟨rfl, projects_limitWhere accepted grid, fun check' => ?_⟩
    have again := fits.of_shape (shape_limitWhere settings (fun _ => True) grid)
    obtain ⟨asked', twice⟩ | ⟨done, asked', -, twice⟩ :=
      ran check' (limitWhere settings (fun _ => True) grid) exact again
    · rw [twice]
      exact limitWhere_limitWhere accepted grid
    · rw [twice]
  · right
    rw [once]
    exact ⟨done, stops, rfl, rfl⟩

end

section
variable {held : Held} {frames : List (List Float)} (exact : held.storage ≠ .singles)

include exact

theorem held_single_projects {s : Nat} {frame : List Float}
    (fits : FitsFrame (held.grid frames) selected count s frame)
    : let single := fun frames =>
        (Work.replaceSelected (passOf settings evaluator) identity held selected count).run
          ⟨frames, 0⟩
      (single frames).1 = .ok ()
      ∧ (∃ address,
          held.addresses[s]? = some address
          ∧ Projects settings (address = ·) ⟨held.storage, frames⟩
              ⟨held.storage, (single frames).2.frames⟩)
      ∧ single (single frames).2.frames = single frames := by
  intro single
  obtain ⟨address, here, once⟩ :=
    Work.run_replaceSelected_identity settings evaluator exact fits
  have shape := held.shape_grid (shape_limitWhere settings (address = ·) ⟨held.storage, frames⟩)
  obtain ⟨frame', again⟩ := fits.of_shape shape
  obtain ⟨address', here', twice⟩ :=
    Work.run_replaceSelected_identity settings evaluator exact again
  obtain rfl : address = address' := Option.some.inj (here.symm.trans here')
  have limits : limitWhere settings (address = ·)
        (limitWhere settings (address = ·) ⟨held.storage, frames⟩)
      = limitWhere settings (address = ·) ⟨held.storage, frames⟩ :=
    limitWhere_limitWhere accepted _
  have first : single frames = _ := once
  have second : single (limitWhere settings (address = ·) ⟨held.storage, frames⟩).frames = _ :=
    twice
  rw [first, second]
  refine ⟨rfl, ⟨address, here, projects_limitWhere accepted _⟩, ?_⟩
  exact congrArg (fun grid : Grid => (Except.ok (), Heap.mk grid.frames 0)) limits

theorem held_multi_projects (fits : Fits (held.grid frames) selected count) (check : CancelCheck)
    : let multi := fun check frames =>
        (Work.replaceAll (passOf settings evaluator) identity check held selected count).run
          ⟨frames, 0⟩
      ((multi check frames).1 = .ok ()
        ∧ Projects settings (· ∈ held.addresses) ⟨held.storage, frames⟩
            ⟨held.storage, (multi check frames).2.frames⟩
        ∧ ∀ check', (multi check' (multi check frames).2.frames).2.frames
            = (multi check frames).2.frames)
      ∨ ∃ done,
          CancelCheck.stops check done = true
          ∧ (multi check frames).1 = .error (.cancelled done (held.grid frames).frameCount)
          ∧ (multi check frames).2.frames = frames := by
  intro multi
  obtain ⟨asked, once⟩ | ⟨done, asked, stops, once⟩ :=
    Work.run_replaceAll_identity settings evaluator exact fits check
  · left
    have first : multi check frames = _ := once
    rw [first]
    refine ⟨rfl, projects_limitWhere accepted _, fun check' => ?_⟩
    have shape :=
      held.shape_grid (shape_limitWhere settings (· ∈ held.addresses) ⟨held.storage, frames⟩)
    obtain ⟨asked', twice⟩ | ⟨done, asked', -, twice⟩ :=
      Work.run_replaceAll_identity settings evaluator exact (fits.of_shape shape) check'
    · have limits : limitWhere settings (· ∈ held.addresses)
            (limitWhere settings (· ∈ held.addresses) ⟨held.storage, frames⟩)
          = limitWhere settings (· ∈ held.addresses) ⟨held.storage, frames⟩ :=
        limitWhere_limitWhere accepted _
      exact (congrArg (·.2.frames) twice).trans (congrArg Grid.frames limits)
    · exact congrArg (·.2.frames) twice
  · right
    have first : multi check frames = _ := once
    rw [first]
    exact ⟨done, stops, rfl, rfl⟩

end

end

/-- The formula `in` limits the samples that it rewrites to the bounds of the settings, and keeps
all that lie within them; applied again, it changes nothing. This holds of one frame and of all
frames, whatever the samples are, of every grid that fits, and also of frames that stand at several
places of a grid or belong to several grids. A pass over all frames may be stopped by the caller,
and then nothing has changed.
-/
theorem input_projects {values : Json.Members} {settings : Settings}
    (accepted : Settings.ofMembers values = .ok settings) (evaluator : Evaluator)
    (selected count : Int)
    : let pass := passOf settings evaluator
      let formula := Compiled.ofTree "in" identity
      compile "in" = .ok formula
      ∧ (∀ grid : Grid,
          grid.storage ≠ .singles
          → let single := fun grid => reportSingle pass formula grid selected count
            let multi := fun check grid => reportMulti pass formula check grid selected count
            (∀ s frame,
              FitsFrame grid selected count s frame
              → (single grid).result = .ok none
                ∧ Projects settings (s = ·) grid (single grid).grid
                ∧ single (single grid).grid = single grid)
            ∧ ∀ check,
                Fits grid selected count
                → ((multi check grid).result = .ok none
                    ∧ Projects settings (fun _ => True) grid (multi check grid).grid
                    ∧ ∀ check', (multi check' (multi check grid).grid).grid
                        = (multi check grid).grid)
                  ∨ ∃ done,
                      CancelCheck.stops check done = true
                      ∧ (multi check grid).result = .error (.cancelled done grid.frameCount)
                      ∧ (multi check grid).grid = grid)
      ∧ ∀ (held : Held) (frames : List (List Float)),
          held.storage ≠ .singles
          → let single := fun frames =>
              (Work.replaceSelected pass identity held selected count).run ⟨frames, 0⟩
            let multi := fun check frames =>
              (Work.replaceAll pass identity check held selected count).run ⟨frames, 0⟩
            (∀ s frame,
              FitsFrame (held.grid frames) selected count s frame
              → (single frames).1 = .ok ()
                ∧ (∃ address,
                    held.addresses[s]? = some address
                    ∧ Projects settings (address = ·) ⟨held.storage, frames⟩
                        ⟨held.storage, (single frames).2.frames⟩)
                ∧ single (single frames).2.frames = single frames)
            ∧ ∀ check,
                Fits (held.grid frames) selected count
                → ((multi check frames).1 = .ok ()
                    ∧ Projects settings (· ∈ held.addresses) ⟨held.storage, frames⟩
                        ⟨held.storage, (multi check frames).2.frames⟩
                    ∧ ∀ check', (multi check' (multi check frames).2.frames).2.frames
                        = (multi check frames).2.frames)
                  ∨ ∃ done,
                      CancelCheck.stops check done = true
                      ∧ (multi check frames).1
                        = .error (.cancelled done (held.grid frames).frameCount)
                      ∧ (multi check frames).2.frames = frames := by
  intro pass formula
  refine ⟨?_, fun grid exact => ?_, fun held frames exact => ?_⟩
  · have scanned : tokenize "in" = .ok [⟨.name, "in", 0, "in"⟩] := by decide +kernel
    exact compile_eq_ok_iff.mpr ⟨identity, parseSource_eq_ok_iff.mpr ⟨_, scanned, rfl⟩, rfl⟩
  · exact ⟨fun s frame fits => single_projects accepted rfl exact fits,
      fun check fits => multi_projects accepted rfl exact fits check⟩
  · exact ⟨fun s frame fits => held_single_projects accepted exact fits,
      fun check fits => held_multi_projects accepted exact fits check⟩

/-- Between bounds that exclude zero, what is NaN, infinite or out of range is limited, and what
lies between them is kept, also a second time.
-/
theorem input_projects_narrow
    : let settings : Settings :=
        { Settings.default with clampLow := .real 0.3, clampHigh := .real 0.4 }
      let grid : Grid := ⟨.lists, [[infinity, nan, 0.35], [-infinity, -0.0, 0.25]]⟩
      let multi := fun grid =>
        reportMulti (passOf settings .default) (.ofTree "in" identity) none grid 1 3
      Settings.ofMembers [("clamp_min", .number 0.3), ("clamp_max", .number 0.4)] = .ok settings
      ∧ grid.storage ≠ .singles
      ∧ Fits grid 1 3
      ∧ WithinBounds settings 0.35
      ∧ (multi grid).result = .ok none
      ∧ sampleAt? (multi grid).grid 0 2 = some 0.35
      ∧ (∃ x, sampleAt? (multi grid).grid 0 1 = some x ∧ 0.3 ≤ x ∧ x ≤ 0.4)
      ∧ (multi (multi grid).grid).grid = (multi grid).grid := by
  intro settings grid multi
  have accepted : Settings.ofMembers [("clamp_min", .number 0.3), ("clamp_max", .number 0.4)]
      = .ok settings := rfl
  have exact : grid.storage ≠ .singles := by decide
  have fits : Fits grid 1 3 := by
    refine ⟨by decide, by decide, by decide, fun frame member => ?_⟩
    rcases List.mem_pair.mp member with rfl | rfl <;> rfl
  have within : WithinBounds settings 0.35 :=
    ⟨by decide +kernel, by decide +kernel, by decide +kernel⟩
  obtain ⟨succeeded, projects, again⟩ | ⟨_, stops, -, -⟩ :=
    ((input_projects accepted .default 1 3).2.1 grid exact).2 none fits
  · have sampled : sampleAt? (multi grid).grid 0 1 = some (limited settings nan) :=
      projects.samples 0 1 trivial
    exact ⟨accepted, exact, fits, within, succeeded, projects.kept 0 2 _ rfl within,
      ⟨_, sampled, (projects.between 0 1 _ trivial sampled).2⟩, again none⟩
  · contradiction

end Wavetable.Grid
