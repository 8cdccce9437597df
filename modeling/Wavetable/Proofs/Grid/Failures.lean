import Wavetable.Proofs.Grid.Cancellation

/-!
Why a formula is not applied to a grid. With functions that have values for all arguments, either
the grid does not have what the pass asks for, or the formula is at fault, or something hinders the
pass that belongs to neither of them: the caller, or the size of a new table.
-/

namespace Wavetable.Grid

open Formula

/-- There is no such frame, no such number of samples, or a frame of another length. -/
def ApplyError.IsOfGrid : ApplyError → Prop
  | .invalidFrame _ => True
  | .invalidCount _ => True
  | .frameLength => True
  | .frameLengthAt _ => True
  | _ => False

/-- What keeps a formula from being applied although neither the formula nor the grid is at fault:
the caller stops the pass when asked about a frame, or the table that takes the place of a grid
that is too small has a negative size or a number of frames that is not whole.
-/
inductive Hindrance (frameCount : Settings.Numeric) (check : CancelCheck) (grid : Grid)
    (count : Int)
    : ApplyError → Prop
  | stopped {done total : Nat} (asked : done < total) (stops : check.stops done = true)
      : Hindrance frameCount check grid count (.cancelled done total)
  | negativeSize (block : grid.storage.isBlock = true) (empty : grid.frames = [])
      (negative : count < 0)
      : Hindrance frameCount check grid count .negativeSize
  | fractionalFrames (small : needsExpansion grid = true)
      (fractional : tableSize? grid.storage frameCount = none)
      : Hindrance frameCount check grid count .fractionalFrames

/-- What a failure may be: a fault of the grid, a fault of the formula, or a hindrance. -/
def ApplyError.Explained (frameCount : Settings.Numeric) (check : CancelCheck) (grid : Grid)
    (count : Int) (error : ApplyError) : Prop :=
  error.IsOfGrid
  ∨ (∃ fault : EvalError, error = .evaluation fault ∧ fault.IsOfFormula)
  ∨ Hindrance frameCount check grid count error

section
variable {pass : Pass} {grid : Grid} {selected count : Int} {error : ApplyError}

-----------------------------------------------------------------------------------------
-- What is refused before anything is evaluated
-----------------------------------------------------------------------------------------

theorem checkSelection_fails (failed : checkSelection grid selected count = .error error)
    : error.IsOfGrid := by
  unfold checkSelection at failed
  split at failed
  next => cases failed; trivial
  next =>
    split at failed
    next => cases failed; trivial
    next => contradiction

theorem checkFrame_fails (failed : checkFrame grid selected count = .error error)
    : error.IsOfGrid := by
  unfold checkFrame at failed
  cases selection : checkSelection grid selected count with
  | error refusal =>
      simp only [selection, bind, Except.bind] at failed
      cases failed
      exact checkSelection_fails selection
  | ok place =>
      simp only [selection, bind, Except.bind] at failed
      split at failed
      next => contradiction
      next => cases failed; trivial

theorem checkFrames_fails (failed : checkFrames grid selected count = .error error)
    : error.IsOfGrid := by
  unfold checkFrames at failed
  cases selection : checkSelection grid selected count with
  | error refusal =>
      simp only [selection, bind, Except.bind] at failed
      cases failed
      exact checkSelection_fails selection
  | ok place =>
      simp only [selection, bind, Except.bind] at failed
      split at failed
      next => cases failed; trivial
      next => contradiction

/-- A table is not built only where its size is negative or its number of frames is not whole. -/
theorem expand_fails {frameCount : Settings.Numeric} (check : CancelCheck)
    (small : needsExpansion grid = true) (failed : expand grid count frameCount = .error error)
    : Hindrance frameCount check grid count error := by
  unfold expand at failed
  split at failed
  next refused =>
    cases failed
    exact .negativeSize refused.1 (List.isEmpty_iff.mp refused.2.1) refused.2.2
  next =>
    split at failed
    next fractional =>
      cases failed
      exact .fractionalFrames small fractional
    next => contradiction

-----------------------------------------------------------------------------------------
-- How a pass fails
-----------------------------------------------------------------------------------------

variable {tree : Expr}

theorem applySingle_fails (frameCount : Settings.Numeric) (check : CancelCheck)
    (total : pass.evaluator.functions.Total) (formed : tree.WellFormed)
    (failed : applySingle pass tree grid selected count = .error error)
    : error.Explained frameCount check grid count := by
  unfold applySingle at failed
  cases checked : checkFrame grid selected count with
  | error refusal =>
      simp only [checked, bind, Except.bind] at failed
      cases failed
      exact .inl (checkFrame_fails checked)
  | ok place =>
      simp only [checked, bind, Except.bind] at failed
      split at failed
      next fault unvalued =>
        cases failed
        exact .inr (.inl ⟨fault, rfl, isOfFormula_of_evaluateSlots total formed unvalued⟩)
      next => contradiction

/-- A pass over all frames of any grid can be hindered by the caller alone. -/
theorem applyMulti_fails (frameCount : Settings.Numeric) {check : CancelCheck} (given : Grid)
    {asked : Nat} (total : pass.evaluator.functions.Total) (formed : tree.WellFormed)
    (failed : applyMulti pass tree check grid selected count = (.error error, asked))
    : error.Explained frameCount check given count := by
  unfold applyMulti at failed
  split at failed
  next refusal refused =>
    cases failed
    exact .inl (checkFrames_fails refused)
  next chosen passed =>
    have ending : Ending pass tree check.stops grid.frameCount chosen 0 grid.frames _ :=
      evaluateFrames_ending check 0 grid.frames
    split at failed
    next fault begun ran =>
      cases failed
      rw [ran] at ending
      cases ending with
      | stopped n inside clear stops =>
          rw [Nat.zero_add] at stops ⊢
          exact .inr (.inr (.stopped inside stops))
      | failed n frame fault clear goesOn found fails =>
          exact .inr (.inl ⟨fault, rfl, fails.isOfFormula total formed⟩)
    next => cases failed

/-- A formula is not applied for one of the reasons there are, by the cases of its mode. -/
theorem apply_fails {frameCount : Settings.Numeric} {formula : Compiled} {check : CancelCheck}
    (total : pass.evaluator.functions.Total) (formed : formula.tree.WellFormed)
    (failed : (apply pass frameCount formula check grid selected count).result = .error error)
    : error.Explained frameCount check grid count := by
  unfold apply at failed
  split at failed
  case h_1 =>
    unfold reportSingle at failed
    split at failed
    next => contradiction
    next ran =>
      cases failed
      exact applySingle_fails frameCount check total formed ran
  case h_2 =>
    unfold reportTable at failed
    split at failed
    next small =>
      split at failed
      next refused =>
        cases failed
        exact .inr (.inr (expand_fails check small refused))
      next table built =>
        split at failed
        next => contradiction
        next ran =>
          cases failed
          exact applyMulti_fails frameCount grid total formed ran
    next =>
      unfold reportMulti at failed
      split at failed
      next => contradiction
      next ran =>
        cases failed
        exact applyMulti_fails frameCount grid total formed ran

end

end Wavetable.Grid
