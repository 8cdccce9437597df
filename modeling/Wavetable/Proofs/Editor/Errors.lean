import Wavetable.Proofs.Editor.Texts
import Wavetable.Proofs.Grid.Failures

/-!
Which failures an editor shows. Each step clears what was shown before it, so what is shown
afterwards is the error of this step, unless the step was hindered by what is a fault neither of
the formula nor of the grid.
-/

namespace Wavetable.Editor

open Formula

/-- Why a formula is not applied: there is none, the text is not one, or the grid is not written. -/
inductive NotApplied (editor : Editor) (check : Grid.CancelCheck) (grid : Grid)
    (selected count : Int)
    : ApplyError → Prop
  | noText (empty : editor.text = "") : NotApplied editor check grid selected count .emptyText
  | unreadable {fault : SyntaxError} (visible : editor.text ≠ "")
      (unread : compile editor.text = .error fault)
      : NotApplied editor check grid selected count (.syntaxFault fault)
  | unwritten {formula : Compiled} {error : Grid.ApplyError} (visible : editor.text ≠ "")
      (read : compile editor.text = .ok formula)
      (failed : (Grid.apply (.ofSettings editor.settings) editor.settings.frameCount formula check
        grid selected count).result = .error error)
      : NotApplied editor check grid selected count (.grid error)

/-- A step fails with an error. It is no failure that a text of nothing but blanks is typed. -/
inductive Step.FailsWith (editor : Editor) : Step → ApplyError → Prop
  | typed {text : String} {fault : SyntaxError} (visible : Text.trim text ≠ "")
      (unread : compile (Text.trim text) = .error fault)
      : FailsWith editor (.update text) (.syntaxFault fault)
  | applied {check : Grid.CancelCheck} {grid : Grid} {selected count : Int} {error : ApplyError}
      (failed : (editor.apply check grid selected count).result = .error error)
      : FailsWith editor (.apply check grid selected count) error

/-- An error that keeps a step from its end is a fault neither of the formula nor of the grid. -/
inductive Step.HinderedBy (settings : Settings) : Step → ApplyError → Prop
  | applied {check : Grid.CancelCheck} {grid : Grid} {selected count : Int}
      {error : Grid.ApplyError}
      (hindrance : Grid.Hindrance settings.frameCount check grid count error)
      : HinderedBy settings (.apply check grid selected count) (.grid error)

/-- Nothing can hinder a step: the caller never stops it, and a table that is called for has a size
that is not negative and a whole number of frames.
-/
def Step.Unhindered (settings : Settings) : Step → Prop
  | .update _ => True
  | .apply check grid _ count =>
      (∀ poll, check.stops poll = false)
      ∧ (grid.storage.isBlock = true → grid.frames = [] → 0 ≤ count)
      ∧ (Grid.needsExpansion grid = true
          → ∃ frames, Grid.tableSize? grid.storage settings.frameCount = some frames)

/-- The error that is shown for a formula that can be read but not be applied. -/
def evaluationErrorText (error : Grid.ApplyError) : String :=
  "Evaluation error: " ++ error.message

/-- An error as it is shown. -/
def ApplyError.display : ApplyError → String
  | .emptyText => ApplyError.emptyText.message
  | .syntaxFault fault => parseErrorText fault
  | .grid error => evaluationErrorText error

/-- What an editor shows of an error that a formula is not applied for. -/
def ApplyError.shown? : ApplyError → Option String
  | .emptyText => some ApplyError.emptyText.display
  | .syntaxFault fault => some (ApplyError.syntaxFault fault).display
  | .grid error => applyErrorText error

/-- What is shown after a step: the error that the step fails with, but nothing if the step is
hindered by it, and nothing if the step does not fail.
-/
inductive Step.Shows (editor : Editor) (step : Step) : Option String → Prop
  | told {error : ApplyError} (fails : step.FailsWith editor error)
      (free : ¬ step.HinderedBy editor.settings error)
      : Shows editor step (some error.display)
  | untold {error : ApplyError} (fails : step.FailsWith editor error)
      (hindered : step.HinderedBy editor.settings error)
      : Shows editor step none
  | passed (succeeds : ∀ error, ¬ step.FailsWith editor error) : Shows editor step none

section
variable {editor : Editor} {step : Step} {error : ApplyError}

theorem Step.failsWith_update_iff {text : String}
    : Step.FailsWith editor (.update text) error
      ↔ Text.trim text ≠ ""
        ∧ ∃ fault, compile (Text.trim text) = .error fault ∧ error = .syntaxFault fault := by
  constructor
  · intro fails
    cases fails with
    | typed visible unread => exact ⟨visible, _, unread, rfl⟩
  · rintro ⟨visible, fault, unread, rfl⟩
    exact .typed visible unread

theorem Step.failsWith_apply_iff {check : Grid.CancelCheck} {grid : Grid} {selected count : Int}
    : Step.FailsWith editor (.apply check grid selected count) error
      ↔ (editor.apply check grid selected count).result = .error error := by
  constructor
  · intro fails
    cases fails with
    | applied failed => exact failed
  · exact .applied

/-- A step fails with no more than one error. -/
theorem Step.FailsWith.unique {other : ApplyError} (one : step.FailsWith editor error)
    (two : step.FailsWith editor other)
    : error = other := by
  cases step with
  | update text =>
      obtain ⟨-, fault, unread, rfl⟩ := failsWith_update_iff.mp one
      obtain ⟨-, fault', unread', rfl⟩ := failsWith_update_iff.mp two
      rw [Except.error.inj (unread.symm.trans unread')]
  | apply check grid selected count =>
      exact Except.error.inj
        ((failsWith_apply_iff.mp one).symm.trans (failsWith_apply_iff.mp two))

theorem Step.not_hinderedBy_syntaxFault {settings : Settings} (fault : SyntaxError)
    : ¬ step.HinderedBy settings (.syntaxFault fault) :=
  nofun

theorem Step.Unhindered.not_hinderedBy {settings : Settings} (free : step.Unhindered settings)
    : ¬ step.HinderedBy settings error := by
  rintro ⟨hindrance⟩
  obtain ⟨goesOn, sized, whole⟩ := free
  cases hindrance with
  | @stopped done total asked stops => simp [goesOn done] at stops
  | negativeSize block empty negative => exact absurd (sized block empty) (by omega)
  | fractionalFrames small fractional =>
      obtain ⟨frames, built⟩ := whole small
      simp [fractional] at built

-----------------------------------------------------------------------------------------
-- What one step shows
-----------------------------------------------------------------------------------------

theorem shows_update (editor : Editor) (text : String)
    : Step.Shows editor (.update text) (editor.update text).lastError := by
  unfold update
  dsimp only
  split
  next empty =>
    refine .passed fun error fails => ?_
    exact (Step.failsWith_update_iff.mp fails).1 (String.isEmpty_iff.mp empty)
  next visible =>
    have visible : Text.trim text ≠ "" := by simpa using visible
    split
    next fault unread =>
      exact .told (.typed visible unread) (Step.not_hinderedBy_syntaxFault fault)
    next formula read =>
      refine .passed fun error fails => ?_
      obtain ⟨-, fault, unread, -⟩ := Step.failsWith_update_iff.mp fails
      cases read.symm.trans unread

section
variable {check : Grid.CancelCheck} {grid : Grid} {selected count : Int}

/-- A formula that is not applied leaves its error as the result and what is shown of it behind. -/
theorem NotApplied.outcome (cause : NotApplied editor check grid selected count error)
    : (editor.apply check grid selected count).result = .error error
      ∧ (editor.apply check grid selected count).editor.lastError = error.shown? := by
  cases cause with
  | noText empty =>
      have empty : editor.text.isEmpty = true := String.isEmpty_iff.mpr empty
      simp only [apply, empty, if_true, true_and]
      rfl
  | unreadable visible unread =>
      have visible : editor.text.isEmpty = false := by simpa using visible
      simp only [apply, visible, Bool.false_eq_true, if_false, unread, true_and]
      rfl
  | unwritten visible read failed =>
      have visible : editor.text.isEmpty = false := by simpa using visible
      simp only [apply, visible, Bool.false_eq_true, if_false, read, failed, true_and]
      rfl

/-- A formula that is applied leaves nothing to be shown. -/
theorem notApplied_or_applied (editor : Editor) (check : Grid.CancelCheck) (grid : Grid)
    (selected count : Int)
    : (∃ error, NotApplied editor check grid selected count error)
      ∨ (∃ written, (editor.apply check grid selected count).result = .ok written)
        ∧ (editor.apply check grid selected count).editor.lastError = none := by
  cases visible : editor.text.isEmpty with
  | true => exact .inl ⟨_, .noText (String.isEmpty_iff.mp visible)⟩
  | false =>
      have notEmpty : editor.text ≠ "" := by simpa using visible
      cases read : compile editor.text with
      | error fault => exact .inl ⟨_, .unreadable notEmpty read⟩
      | ok formula =>
          cases ran : (Grid.apply (.ofSettings editor.settings) editor.settings.frameCount formula
              check grid selected count).result with
          | error error => exact .inl ⟨_, .unwritten notEmpty read ran⟩
          | ok written =>
              simp only [apply, visible, Bool.false_eq_true, if_false, read, ran, and_true]
              exact .inr ⟨written, rfl⟩

/-- An application fails for no other reasons than there are, and for each of them. -/
theorem apply_failed_iff
    : (editor.apply check grid selected count).result = .error error
      ↔ NotApplied editor check grid selected count error := by
  refine ⟨fun failed => ?_, fun cause => cause.outcome.1⟩
  rcases notApplied_or_applied editor check grid selected count with
    ⟨error', cause⟩ | ⟨⟨written, applied⟩, -⟩
  · obtain rfl := Except.error.inj (cause.outcome.1.symm.trans failed)
    exact cause
  · cases applied.symm.trans failed

theorem applyErrorText_of_hindrance {frameCount : Settings.Numeric} {error : Grid.ApplyError}
    (hindrance : Grid.Hindrance frameCount check grid count error)
    : applyErrorText error = none := by
  cases hindrance <;> rfl

/-- What a pass can fail with is shown, unless it is a hindrance. -/
theorem applyErrorText_of_explained {frameCount : Settings.Numeric} {error : Grid.ApplyError}
    (explained : error.Explained frameCount check grid count)
    (free : ¬ Grid.Hindrance frameCount check grid count error)
    : applyErrorText error = some (ApplyError.grid error).display := by
  have counted : isEvaluationFailure error = true := by
    rcases explained with ofGrid | ⟨fault, rfl, ofFormula⟩ | hindrance
    · cases error <;> first | rfl | contradiction
    · cases fault <;> first | rfl | contradiction
    · contradiction
  rw [applyErrorText, if_pos counted]
  rfl

end

theorem shows_apply (editor : Editor) (check : Grid.CancelCheck) (grid : Grid)
    (selected count : Int)
    : Step.Shows editor (.apply check grid selected count)
        (editor.apply check grid selected count).editor.lastError := by
  rcases notApplied_or_applied editor check grid selected count with
    ⟨error, cause⟩ | ⟨⟨written, applied⟩, silent⟩
  · obtain ⟨failed, shown⟩ := cause.outcome
    rw [shown]
    cases cause with
    | noText => exact .told (.applied failed) nofun
    | @unreadable fault visible unread =>
        exact .told (.applied failed) (Step.not_hinderedBy_syntaxFault fault)
    | @unwritten formula error visible read ran =>
        have explained : error.Explained editor.settings.frameCount check grid count :=
          Grid.apply_fails Registry.total_default (wellFormed_of_compile read) ran
        by_cases hindrance : Grid.Hindrance editor.settings.frameCount check grid count error
        · rw [ApplyError.shown?, applyErrorText_of_hindrance hindrance]
          exact .untold (.applied failed) (.applied hindrance)
        · rw [ApplyError.shown?, applyErrorText_of_explained explained hindrance]
          exact .told (.applied failed) fun ⟨caught⟩ => hindrance caught
  · rw [silent]
    refine .passed fun error fails => ?_
    cases applied.symm.trans (Step.failsWith_apply_iff.mp fails)

theorem shows_perform (editor : Editor) (step : Step)
    : step.Shows editor (step.perform editor).lastError := by
  cases step with
  | update text => exact shows_update editor text
  | apply check grid selected count => exact shows_apply editor check grid selected count

end

-----------------------------------------------------------------------------------------
-- What is shown after any steps
-----------------------------------------------------------------------------------------

theorem settings_perform (editor : Editor) (step : Step)
    : (step.perform editor).settings = editor.settings := by
  cases step with
  | update text =>
      unfold Step.perform update
      dsimp only
      split
      next => rfl
      next => split <;> rfl
  | apply check grid selected count =>
      unfold Step.perform apply
      dsimp only
      split
      next => rfl
      next =>
        split
        next => rfl
        next => split <;> rfl

/-- An editor keeps its settings, by induction on the steps. -/
theorem settings_after (editor : Editor) (steps : List Step)
    : (editor.after steps).settings = editor.settings := by
  induction steps generalizing editor with
  | nil => rfl
  | cons step rest ih => exact (ih (step.perform editor)).trans (settings_perform editor step)

end Wavetable.Editor
