import Wavetable.Proofs.Formula.References
import Wavetable.Proofs.Grid.Failures
import Wavetable.Proofs.Grid.Targets
import Wavetable.Proofs.Settings.Limits

/-!
What a formula comes to on a grid that suits it, under settings that were accepted. Neither the
bounds nor the tolerance keep it from being applied, whatever they are. A number of frames does,
where a new table is needed and the number is not whole.
-/

namespace Wavetable.Grid

open Formula

/-- The grid has what the formula asks for: frames of the given number of samples, at least one, and
a selected frame, where only that is replaced.
-/
structure Suits (formula : Compiled) (grid : Grid) (selected count : Int) : Prop where
  positive : 0 < count
  uniform : ∀ frame ∈ grid.frames, (frame.length : Int) = count
  selects : formula.mode = .singleFrame → 0 ≤ selected ∧ selected < grid.frameCount

/-- All names of a formula are known, and its functions have as many arguments as they take. -/
def RefersThroughout (tree : Expr) : Prop :=
  ∀ node ∈ tree.walk, node.Refers .default

instance (tree : Expr) : Decidable (RefersThroughout tree) :=
  inferInstanceAs (Decidable (∀ node ∈ tree.walk, node.Refers .default))

/-- A number of frames that no table is made for: a double, unless it asks a block for one frame. -/
def RefusesTable (storage : Storage) (frameCount : Settings.Numeric) : Prop :=
  (∃ x, frameCount = .real x) ∧ ¬ (storage.isBlock = true ∧ frameCount.same (.whole 1) = true)

/-- How applying a formula to a grid that suits it may end: it is written, the caller stops it, the
formula is at fault, since it refers to something that there is not, or no table is made.
-/
inductive Ends (frameCount : Settings.Numeric) (formula : Compiled) (check : CancelCheck)
    (grid : Grid)
    : Except ApplyError (Option Grid) → Prop
  | written (new : Option Grid) : Ends frameCount formula check grid (.ok new)
  | stopped {done total : Nat} (stops : check.stops done = true)
    : Ends frameCount formula check grid (.error (.cancelled done total))
  | fault {fault : EvalError} (ofFormula : fault.IsOfFormula)
      (unknown : ¬ RefersThroughout formula.tree)
    : Ends frameCount formula check grid (.error (.evaluation fault))
  | noTable (makes : MakesTable formula grid.frames)
      (refuses : RefusesTable grid.storage frameCount)
    : Ends frameCount formula check grid (.error .fractionalFrames)

-----------------------------------------------------------------------------------------
-- New tables
-----------------------------------------------------------------------------------------

section
variable {frameCount : Settings.Numeric} {storage : Storage} {grid : Grid} {count size : Int}

theorem tableSize?_eq_none_iff
    : tableSize? storage frameCount = none ↔ RefusesTable storage frameCount := by
  unfold tableSize? RefusesTable
  obtain ⟨whole, given⟩ | ⟨x, rfl⟩ := frameCount.whole_or_real
  · rw [given]
    refine iff_of_false nofun fun refuses => ?_
    obtain ⟨x, rfl⟩ := refuses.1
    contradiction
  · simp [Settings.Numeric.whole?]

/-- A table has a frame, where the number of frames is above zero. -/
theorem tableSize?_pos (positive : frameCount.IsPositive)
    (sized : tableSize? storage frameCount = some size)
    : 0 < size := by
  unfold tableSize? at sized
  obtain ⟨whole, given, above⟩ | ⟨x, rfl, -⟩ := positive
  · rw [given] at sized
    obtain rfl := Option.some.inj sized
    exact above
  · simp only [Settings.Numeric.whole?] at sized
    split at sized
    next =>
      obtain rfl := Option.some.inj sized
      exact Int.one_pos
    next => contradiction

/-- The nearest frame of a grid with frames of the given length is selected. -/
theorem fits_nearestIndex (selected : Int) (some : 0 < grid.frameCount) (positive : 0 < count)
    (uniform : ∀ frame ∈ grid.frames, (frame.length : Int) = count)
    : Fits grid (nearestIndex grid selected) count := by
  obtain ⟨low, high⟩ := nearestIndex_inside selected some
  exact ⟨low, high, positive, uniform⟩

/-- The frames of a table are as long as those of the grid, or as there are samples. -/
theorem uniform_copies (positive : 0 < count)
    (uniform : ∀ frame ∈ grid.frames, (frame.length : Int) = count)
    : ∀ frame ∈ (copies grid count size).frames, (frame.length : Int) = count := by
  intro frame member
  obtain ⟨-, rfl⟩ := List.mem_replicate.mp member
  cases held : grid.frames with
  | nil =>
      rw [List.headD_nil, List.length_replicate]
      omega
  | cons first rest => exact uniform first (held ▸ List.mem_cons_self)

end

-----------------------------------------------------------------------------------------
-- The ends of a pass
-----------------------------------------------------------------------------------------

section
variable {settings : Settings} {frameCount : Settings.Numeric} {formula : Compiled}
  {check : CancelCheck} {grid : Grid} {selected count : Int}

/-- Where a formula has no value for a sample, it is at fault and refers to something that there is
not. No sample gives a parameter, which could be too large.
-/
theorem evaluateSlots_fault {tolerance : Float} {tree : Expr} (formed : tree.WellFormed)
    {y z : Float} {places : List Slot} {fault : EvalError}
    (failed : evaluateSlots ⟨.default, tolerance⟩ tree y z places = .error fault)
    : fault.IsOfFormula ∧ ¬ RefersThroughout tree := by
  refine ⟨isOfFormula_of_evaluateSlots Registry.total_default formed failed, fun refers => ?_⟩
  obtain ⟨-, slot, -, -, -, here⟩ := evaluateSlots_eq_error.mp failed
  have fits : ¬ (slot.context y z).Overflows := fun ⟨q, given, _⟩ => nomatch given
  obtain ⟨x, valued⟩ : ∃ x, Evaluator.value ⟨.default, tolerance⟩ (slot.context y z) tree = .ok x :=
    value_succeeds Registry.total_default fits tree formed refers
  exact nomatch here.symm.trans valued

/-- A pass over one frame that fits is written, or the formula is at fault. -/
theorem reportSingle_ends (formed : formula.tree.WellFormed) {s n : Nat} {frame : List Float}
    (found : grid.frames[s]? = some frame) (framed : frame.length = n) (positive : 1 ≤ n)
    : Ends frameCount formula check grid
        (reportSingle (.ofSettings settings) formula grid s n).result := by
  cases evaluated : evaluateFrame (.ofSettings settings) formula.tree 0.0 0.0 frame frame with
  | error fault =>
      obtain ⟨ofFormula, unknown⟩ := evaluateSlots_fault formed evaluated
      have failed : (reportSingle (.ofSettings settings) formula grid s n).result
          = .error (.evaluation fault) := by
        rw [reportSingle_eq, applySingle, checkFrame_of_length found framed positive]
        simp [bind, Except.bind, evaluated, Report.ofInPlace, Except.map, throw, throwThe,
          MonadExceptOf.throw]
      rw [failed]
      exact .fault ofFormula unknown
  | ok xs =>
      rw [(reportSingle_of_values found framed positive evaluated).1]
      exact .written none

/-- A pass over all frames of a grid that fits is written, whichever grid is said to be, or the
caller stops it, or the formula is at fault.
-/
theorem applyMulti_ends (formed : formula.tree.WellFormed) {target : Grid}
    (fits : Fits target selected count) (answer : Grid → Option Grid)
    : Ends frameCount formula check grid
        ((applyMulti (.ofSettings settings) formula.tree check target selected count).1.map
          answer) := by
  obtain ⟨chosen, passed⟩ := checkFrames_ok_iff.mpr fits
  have ending : Ending (.ofSettings settings) formula.tree check.stops target.frameCount chosen 0
      target.frames _ :=
    evaluateFrames_ending check 0 target.frames
  rw [applyMulti, passed]
  dsimp only
  generalize evaluateFrames (.ofSettings settings) formula.tree check target.frameCount chosen 0
    target.frames = outcome at ending ⊢
  cases ending with
  | stopped n inside clear stops => exact .stopped stops
  | failed n frame fault clear goesOn found fails =>
      obtain ⟨ofFormula, unknown⟩ := evaluateSlots_fault formed (failsAt_iff.mp fails)
      exact .fault ofFormula unknown
  | finished rows clear => exact .written _

/-- A table is refused before anything is evaluated. -/
theorem apply_noTable {pass : Pass} (makes : MakesTable formula grid.frames)
    (refuses : RefusesTable grid.storage frameCount) (positive : 0 < count)
    : (apply pass frameCount formula check grid selected count).result
      = .error .fractionalFrames := by
  have small : needsExpansion grid = true := needsExpansion_iff.mpr makes.2
  rw [apply, makes.1]
  simp only [reportTable, small, if_true, expand_of_positive grid frameCount positive,
    tableSize?_eq_none_iff.mpr refuses]

/-- A grid that is too small is replaced by a table, which fits. -/
theorem apply_table_ends (formed : formula.tree.WellFormed)
    (makes : MakesTable formula grid.frames) {size : Int}
    (sized : tableSize? grid.storage frameCount = some size) (some : frameCount.IsPositive)
    (positive : 0 < count) (uniform : ∀ frame ∈ grid.frames, (frame.length : Int) = count)
    : Ends frameCount formula check grid
        (apply (.ofSettings settings) frameCount formula check grid selected count).result := by
  have made : expand grid count frameCount = .ok (copies grid count size) := by
    rw [expand_of_positive grid frameCount positive, sized]
  have framed : 0 < (copies grid count size).frameCount := by
    have above := tableSize?_pos some sized
    have counted := frameCount_copies grid count above
    omega
  rw [apply, makes.1]
  dsimp only
  rw [reportTable_eq (needsExpansion_iff.mpr makes.2) made]
  exact applyMulti_ends formed
    (fits_nearestIndex selected framed positive (uniform_copies positive uniform)) _

/-- A formula that suits a grid comes to one of its ends, by the cases of its mode. -/
theorem apply_ends (formed : formula.tree.WellFormed) (suits : Suits formula grid selected count)
    (some : frameCount.IsPositive)
    : Ends frameCount formula check grid
        (apply (.ofSettings settings) frameCount formula check grid selected count).result := by
  obtain ⟨positive, uniform, selects⟩ := suits
  cases mode : formula.mode with
  | singleFrame =>
      obtain ⟨low, high⟩ := selects mode
      obtain ⟨s, rfl⟩ := Int.eq_ofNat_of_zero_le low
      obtain ⟨n, rfl⟩ := Int.eq_ofNat_of_zero_le positive.le
      have inside : s < grid.frames.length := by exact_mod_cast high
      have framed := uniform _ (List.getElem_mem inside)
      rw [apply, mode]
      exact reportSingle_ends formed (List.getElem?_eq_getElem inside) (by omega) (by omega)
  | multiFrame =>
      by_cases few : grid.frames.length ≤ 1
      · cases sized : tableSize? grid.storage frameCount with
        | none =>
            have refuses := tableSize?_eq_none_iff.mp sized
            rw [apply_noTable ⟨mode, few⟩ refuses positive]
            exact .noTable ⟨mode, few⟩ refuses
        | some size => exact apply_table_ends formed ⟨mode, few⟩ sized some positive uniform
      · have framed : 0 < grid.frameCount := by
          simp only [Grid.frameCount]
          omega
        have large : needsExpansion grid = false :=
          Bool.eq_false_iff.mpr (few ∘ needsExpansion_iff.mp)
        rw [apply, mode]
        simp only [reportTable, large, Bool.false_eq_true, if_false, reportMulti_eq]
        exact applyMulti_ends formed (fits_nearestIndex selected framed positive uniform) _

end

/-- Accepted settings are within their limits, and under them a formula that suits a grid is
written. Otherwise the caller stops it, or it refers to something that there is not and is at fault,
or a number of frames that is not whole leaves no table. With names that are all known and a caller
that never stops it, a formula is thus always written, unless a table is refused.
-/
theorem accepted_settings_apply {settings : Settings} (obtained : Settings.Obtained settings)
    : settings.WithinLimits
      ∧ ∀ (source : String) (formula : Compiled) (check : CancelCheck) (grid : Grid)
          (selected count : Int),
        compile source = .ok formula → Suits formula grid selected count →
        let result :=
          (apply (.ofSettings settings) settings.frameCount formula check grid selected
            count).result
        let refused :=
          MakesTable formula grid.frames ∧ RefusesTable grid.storage settings.frameCount
        Ends settings.frameCount formula check grid result
        ∧ (result = .error .fractionalFrames ↔ refused)
        ∧ (RefersThroughout formula.tree → (∀ poll, check.stops poll = false) → ¬ refused →
          ∃ new, result = .ok new) := by
  have limits := obtained.withinLimits
  refine ⟨limits, fun source formula check grid selected count compiled suits => ?_⟩
  intro result refused
  have ends : Ends settings.frameCount formula check grid result :=
    apply_ends (wellFormed_of_compile compiled) suits limits.frameCount
  refine ⟨ends, ⟨fun failed => ?_, fun ⟨makes, refuses⟩ => ?_⟩, fun refers goesOn accepted => ?_⟩
  · rw [failed] at ends
    cases ends with
    | noTable makes refuses => exact ⟨makes, refuses⟩
  · exact apply_noTable makes refuses suits.positive
  · generalize result = outcome at ends ⊢
    cases ends with
    | written new => exact ⟨new, rfl⟩
    | stopped stops => exact nomatch (goesOn _).symm.trans stops
    | fault _ unknown => exact absurd refers unknown
    | noTable makes refuses => exact absurd ⟨makes, refuses⟩ accepted

/-- A frame becomes a table of two under settings that were loaded from the caller's values. -/
theorem accepted_settings_apply_two_frames
    : let settings : Settings := { Settings.default with frameCount := .whole 2 }
      let formula := Compiled.ofTree "in + y" (.binary .add (.var "in") (.var "y"))
      let grid : Grid := ⟨.lists, [[0.25]]⟩
      Settings.load .missing [] [("default_frame_count", .integer 2)] = .ok settings
      ∧ settings.WithinLimits
      ∧ compile "in + y" = .ok formula
      ∧ Suits formula grid 3 1
      ∧ RefersThroughout formula.tree
      ∧ ∃ new,
          (apply (.ofSettings settings) settings.frameCount formula none grid 3 1).result
            = .ok new := by
  intro settings formula grid
  have loaded : Settings.load .missing [] [("default_frame_count", .integer 2)] = .ok settings :=
    rfl
  have compiled : compile "in + y" = .ok formula := rfl
  have multi : formula.mode = .multiFrame := by decide +kernel
  have suits : Suits formula grid 3 1 :=
    ⟨Int.one_pos, by simp [grid], fun single => nomatch multi.symm.trans single⟩
  have refers : RefersThroughout formula.tree := by decide +kernel
  obtain ⟨limits, applies⟩ := accepted_settings_apply (.loaded loaded)
  obtain ⟨-, -, succeeds⟩ := applies "in + y" formula none grid 3 1 compiled suits
  exact ⟨loaded, limits, compiled, suits, refers,
    succeeds refers (fun _ => rfl) fun refused => nomatch refused.2.1⟩

/-- A tolerance that is NaN is accepted, and so is a number of frames between one and two, which
leaves a formula with known names without a table.
-/
theorem accepted_settings_refuse_table
    : let uncertain : Settings := { Settings.default with tolerance := .real Number.nan }
      let fractional : Settings := { Settings.default with frameCount := .real 1.5 }
      let formula := Compiled.ofTree "y" (.var "y")
      let grid : Grid := ⟨.lists, [[0.0]]⟩
      Settings.ofMembers [("eq_tolerance", .number Number.nan)] = .ok uncertain
      ∧ uncertain.tolerance.toFloat.isNaN = true
      ∧ Settings.ofMembers [("default_frame_count", .number 1.5)] = .ok fractional
      ∧ compile "y" = .ok formula
      ∧ Suits formula grid 0 1
      ∧ RefersThroughout formula.tree
      ∧ (apply (.ofSettings fractional) fractional.frameCount formula none grid 0 1).result
          = .error .fractionalFrames := by
  intro uncertain fractional formula grid
  have multi : formula.mode = .multiFrame := by decide +kernel
  have suits : Suits formula grid 0 1 :=
    ⟨Int.one_pos, by simp [grid], fun single => nomatch multi.symm.trans single⟩
  have refuses : RefusesTable grid.storage fractional.frameCount :=
    ⟨⟨_, rfl⟩, fun block => nomatch block.1⟩
  exact ⟨rfl, by decide +kernel, rfl, rfl, suits, by decide +kernel,
    apply_noTable ⟨multi, Nat.le_refl 1⟩ refuses Int.one_pos⟩

end Wavetable.Grid
