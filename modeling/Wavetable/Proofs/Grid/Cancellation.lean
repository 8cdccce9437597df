import Mathlib.Data.ENat.Basic
import Wavetable.Proofs.Formula.Failures
import Wavetable.Proofs.Grid.Atomic

/-!
A pass over all frames that the caller may stop. Before each frame the caller is asked, so the first
answer that stops the pass runs against the first frame that the formula fails at, and the number of
questions tells which of them came first.
-/

namespace Wavetable.Grid

open Formula Procedure

-----------------------------------------------------------------------------------------
-- The first of some indices
-----------------------------------------------------------------------------------------

/-- The first index at which something holds; it is infinite where that holds nowhere. -/
structure IsFirst (holds : Nat → Prop) (first : ℕ∞) : Prop where
  before : ∀ i : Nat, (i : ℕ∞) < first → ¬ holds i
  here : ∀ i : Nat, first = i → holds i

section
variable {holds : Nat → Prop} {first : ℕ∞} {n : Nat}

theorem exists_isFirst (holds : Nat → Prop) : ∃ first, IsFirst holds first := by
  classical
  by_cases somewhere : ∃ i, holds i
  · refine ⟨Nat.find somewhere, fun i earlier => ?_, fun i here => ?_⟩
    · exact Nat.find_min somewhere (by exact_mod_cast earlier)
    · obtain rfl : Nat.find somewhere = i := by exact_mod_cast here
      exact Nat.find_spec somewhere
  · exact ⟨⊤, fun i _ here => somewhere ⟨i, here⟩, fun i here => by simp at here⟩

/-- Where something holds at none of the indices below a number, the first index is not below it. -/
theorem IsFirst.le (isFirst : IsFirst holds first) (none : ∀ i < n, ¬ holds i)
    : (n : ℕ∞) ≤ first := by
  by_contra earlier
  obtain ⟨i, rfl⟩ := ENat.ne_top_iff_exists.mp (ne_top_of_lt (not_le.mp earlier))
  have below : i < n := by exact_mod_cast not_le.mp earlier
  exact none i below (isFirst.here i rfl)

theorem IsFirst.eq (isFirst : IsFirst holds first) (none : ∀ i < n, ¬ holds i) (here : holds n)
    : first = n := by
  refine le_antisymm (le_of_not_gt fun later => ?_) (isFirst.le none)
  exact isFirst.before n later here

end

-----------------------------------------------------------------------------------------
-- What is refused before the first question
-----------------------------------------------------------------------------------------

/-- A frame of the grid is selected, and all frames have the given length, which is positive. -/
structure Fits (grid : Grid) (selected count : Int) : Prop where
  low : 0 ≤ selected
  high : selected < grid.frameCount
  positive : 0 < count
  uniform : ∀ frame ∈ grid.frames, (frame.length : Int) = count

/-- The checks accept exactly what fits. -/
theorem checkFrames_ok_iff {grid : Grid} {selected count : Int}
    : (∃ frame, checkFrames grid selected count = .ok frame) ↔ Fits grid selected count := by
  constructor
  · rintro ⟨frame, passed⟩
    obtain ⟨s, n, rfl, found, rfl, positive, uniform⟩ := checkFrames_ok passed
    have inside : s < grid.frames.length := (List.getElem?_eq_some_iff.mp found).1
    constructor
    case low => omega
    case high => exact_mod_cast inside
    case positive => omega
    case uniform => exact fun frame member => by rw [uniform frame member]
  · rintro ⟨low, high, positive, uniform⟩
    have selection : checkSelection grid selected count = .ok (selected.toNat, count.toNat) := by
      rw [checkSelection, if_neg (by omega), if_neg (by omega)]
    have right : wrongLength? count.toNat grid = none := by
      refine List.findIdx?_eq_none_iff.mpr fun frame member => ?_
      have := uniform frame member
      simp only [ne_eq, decide_not, Bool.not_eq_false', decide_eq_true_eq]
      omega
    refine ⟨grid.frames.getD selected.toNat [], ?_⟩
    simp [checkFrames, selection, right, bind, Except.bind, pure, Except.pure]

-----------------------------------------------------------------------------------------
-- Frames that the formula fails at
-----------------------------------------------------------------------------------------

/-- The formula fails at a frame in a pass over all frames: it has a value for each sample up to
one, and none for that one.
-/
def FailsAt (pass : Pass) (tree : Expr) (total : Nat) (selected : List Float) (t : Nat)
    (frame : List Float) (error : EvalError) : Prop :=
  let y := unitPosition total t
  ∃ before slot behind,
    slots pass.seed frame selected = before ++ slot :: behind
    ∧ (∀ earlier ∈ before,
        ∃ x, pass.evaluator.value (earlier.context y (centred y)) tree = .ok x)
    ∧ pass.evaluator.value (slot.context y (centred y)) tree = .error error

/-- Samples are evaluated up to the first one without a value, by induction on the samples. -/
theorem evaluateSlots_eq_error {evaluator : Evaluator} {tree : Expr} {y z : Float}
    {places : List Slot} {error : EvalError}
    : evaluateSlots evaluator tree y z places = .error error
      ↔ ∃ before slot behind, places = before ++ slot :: behind
        ∧ (∀ earlier ∈ before, ∃ x, evaluator.value (earlier.context y z) tree = .ok x)
        ∧ evaluator.value (slot.context y z) tree = .error error := by
  induction places with
  | nil => simp [evaluateSlots]
  | cons place rest ih =>
      rw [evaluateSlots]
      cases value : evaluator.value (place.context y z) tree with
      | error error' =>
          constructor
          · intro failed
            obtain rfl : error' = error := by simpa using failed
            exact ⟨[], place, rest, rfl, by simp, value⟩
          · rintro ⟨_ | ⟨first, before⟩, slot, behind, split, valued, failed⟩
            · obtain ⟨rfl, -⟩ := List.cons.inj split
              rw [← value, failed]
            · obtain ⟨rfl, -⟩ := List.cons.inj split
              obtain ⟨x, first⟩ := valued _ List.mem_cons_self
              cases value.symm.trans first
      | ok x =>
          constructor
          · intro failed
            dsimp only at failed
            split at failed
            next error' later =>
              obtain rfl : error' = error := by simpa using failed
              obtain ⟨before, slot, behind, rfl, valued, failed⟩ := ih.mp later
              refine ⟨place :: before, slot, behind, rfl, ?_, failed⟩
              exact List.forall_mem_cons.mpr ⟨⟨x, value⟩, valued⟩
            next => contradiction
          · rintro ⟨_ | ⟨first, before⟩, slot, behind, split, valued, failed⟩
            · obtain ⟨rfl, -⟩ := List.cons.inj split
              cases value.symm.trans failed
            · obtain ⟨-, rfl⟩ := List.cons.inj split
              have later := ih.mpr
                ⟨before, slot, behind, rfl, (List.forall_mem_cons.mp valued).2, failed⟩
              simp only [later]

/-- With functions that have values for all arguments, samples fail by a fault of the formula: the
parameter, which is never given in a pass, is not to blame.
-/
theorem isOfFormula_of_evaluateSlots {evaluator : Evaluator} {tree : Expr} {y z : Float}
    {places : List Slot} {error : EvalError} (total : evaluator.functions.Total)
    (formed : tree.WellFormed) (failed : evaluateSlots evaluator tree y z places = .error error)
    : error.IsOfFormula := by
  obtain ⟨-, slot, -, -, -, here⟩ := evaluateSlots_eq_error.mp failed
  rcases value_fails total tree formed here with fault | ⟨-, q, given, -⟩
  · exact fault
  · contradiction

section
variable {pass : Pass} {tree : Expr} {total : Nat} {selected : List Float}

theorem failsAt_iff {t : Nat} {frame : List Float} {error : EvalError}
    : FailsAt pass tree total selected t frame error
      ↔ evaluateFrame pass tree (unitPosition total t) (centred (unitPosition total t)) frame
          selected = .error error :=
  evaluateSlots_eq_error.symm

theorem FailsAt.isOfFormula {t : Nat} {frame : List Float} {error : EvalError}
    (fails : FailsAt pass tree total selected t frame error)
    (total : pass.evaluator.functions.Total) (formed : tree.WellFormed)
    : error.IsOfFormula :=
  isOfFormula_of_evaluateSlots total formed (failsAt_iff.mp fails)

-----------------------------------------------------------------------------------------
-- How frames are gone through
-----------------------------------------------------------------------------------------

/-- The first `n` frames from an index on are gone through: the caller stops at none of them, and
the formula fails at none of them.
-/
def Clear (pass : Pass) (tree : Expr) (answers : Nat → Bool) (total : Nat) (selected : List Float)
    (first : Nat) (frames : List (List Float)) (n : Nat) : Prop :=
  ∀ t < n, answers (first + t) = false
    ∧ ∀ frame error, frames[t]? = some frame
      → ¬ FailsAt pass tree total selected (first + t) frame error

/-- The frames from an index on are gone through up to the first at which the caller stops, or up to
the first at which the formula fails, or to their end.
-/
inductive Ending (pass : Pass) (tree : Expr) (answers : Nat → Bool) (total : Nat)
    (selected : List Float) (first : Nat) (frames : List (List Float))
    : Except ApplyError (List (List Float)) × Nat → Prop
  | stopped (n : Nat) (inside : n < frames.length)
      (clear : Clear pass tree answers total selected first frames n)
      (stops : answers (first + n) = true)
      : Ending pass tree answers total selected first frames
          (.error (.cancelled (first + n) total), first + n + 1)
  | failed (n : Nat) (frame : List Float) (error : EvalError)
      (clear : Clear pass tree answers total selected first frames n)
      (goesOn : answers (first + n) = false) (found : frames[n]? = some frame)
      (fails : FailsAt pass tree total selected (first + n) frame error)
      : Ending pass tree answers total selected first frames
          (.error (.evaluation error), first + n + 1)
  | finished (rows : List (List Float))
      (clear : Clear pass tree answers total selected first frames frames.length)
      : Ending pass tree answers total selected first frames (.ok rows, first + frames.length)

variable {answers : Nat → Bool}

/-- One more frame in front that is gone through. -/
theorem Clear.cons {first n : Nat} {frame : List Float} {rest : List (List Float)}
    (clear : Clear pass tree answers total selected (first + 1) rest n)
    (goesOn : answers first = false)
    (valued : ∀ error, ¬ FailsAt pass tree total selected first frame error)
    : Clear pass tree answers total selected first (frame :: rest) (n + 1) := by
  intro t earlier
  cases t with
  | zero =>
      refine ⟨goesOn, fun frame' error here => ?_⟩
      obtain rfl : frame = frame' := by simpa using here
      exact valued error
  | succ t =>
      have later := clear t (by omega)
      rwa [Nat.add_right_comm, Nat.add_assoc] at later

/-- Every run through frames has one of the endings, by induction on the frames. -/
theorem evaluateFrames_ending (check : CancelCheck) (first : Nat) (frames : List (List Float))
    : Ending pass tree check.stops total selected first frames
        (evaluateFrames pass tree check total selected first frames) := by
  induction frames generalizing first with
  | nil => exact .finished [] fun t earlier => absurd earlier (Nat.not_lt_zero t)
  | cons frame rest ih =>
      have none : Clear pass tree check.stops total selected first (frame :: rest) 0 :=
        fun t earlier => absurd earlier (Nat.not_lt_zero t)
      rw [evaluateFrames]
      cases asked : check.stops first with
      | true =>
          simp only [if_true]
          exact .stopped 0 (Nat.succ_pos _) none asked
      | false =>
          simp only [Bool.false_eq_true, if_false]
          cases value : evaluateFrame pass tree (unitPosition total first)
              (centred (unitPosition total first)) frame selected with
          | error error => exact .failed 0 frame error none asked rfl (failsAt_iff.mpr value)
          | ok values =>
              have valued : ∀ error, ¬ FailsAt pass tree total selected first frame error := by
                intro error fails
                cases value.symm.trans (failsAt_iff.mp fails)
              -- what is left ends as it does from the next index on
              generalize ran : evaluateFrames pass tree check total selected (first + 1) rest
                = outcome
              have ending := ih (first + 1)
              rw [ran] at ending
              have shift : ∀ n, first + 1 + n = first + (n + 1) := by omega
              cases ending with
              | stopped n inside clear stops =>
                  rw [shift] at stops ⊢
                  exact .stopped (n + 1) (Nat.succ_lt_succ inside) (clear.cons asked valued) stops
              | failed n frame' error clear goesOn found fails =>
                  rw [shift] at goesOn fails ⊢
                  exact .failed (n + 1) frame' error (clear.cons asked valued) goesOn found fails
              | finished rows clear =>
                  rw [shift]
                  exact .finished (values :: rows) (clear.cons asked valued)

/-- A pass whose checks accept the grid ends as its frames are gone through. -/
theorem reportMulti_ending {formula : Compiled} {grid : Grid} {chosen : List Float}
    {selected count : Int} (passed : checkFrames grid selected count = .ok chosen)
    : ∃ outcome,
        Ending pass formula.tree answers grid.frameCount chosen 0 grid.frames outcome
        ∧ (reportMulti pass formula (some answers) grid selected count).result
          = outcome.1.map (fun _ => none)
        ∧ (reportMulti pass formula (some answers) grid selected count).polls = outcome.2 := by
  refine ⟨_, evaluateFrames_ending (some answers) 0 grid.frames, ?_⟩
  simp only [reportMulti, applyMulti, passed]
  rcases evaluateFrames pass formula.tree (some answers) grid.frameCount chosen 0 grid.frames with
    ⟨_ | _, begun⟩ <;> exact ⟨rfl, rfl⟩

end

/-- The formula fails at frame `t` in a pass over all frames of a grid. -/
def FailsInPass (pass : Pass) (tree : Expr) (grid : Grid) (selected : Int) (t : Nat)
    (error : EvalError) : Prop :=
  ∃ frame chosen, grid.frames[t]? = some frame ∧ grid.frames[selected.toNat]? = some chosen
    ∧ FailsAt pass tree grid.frameCount chosen t frame error

/-- A pass over all frames of a grid that is refused asks the caller nothing. Of any other grid, the
first answer that stops the pass is compared with the first frame that the formula fails at. If the
answer is not the later one and is asked for at all, the pass is cancelled, after one question more
than frames were gone through. If there is such a frame otherwise, the pass fails by the fault of
the formula there, once it has asked about that frame too. If there is neither, all frames are
replaced, after one question for each. The report is what a procedure comes to that asks and writes
one frame after the other.
-/
theorem first_stop_or_failure_wins (pass : Pass) (formula : Compiled) (answers : Nat → Bool)
    (grid : Grid) (selected count : Int)
    : let report := reportMulti pass formula (some answers) grid selected count
      let total := grid.frameCount
      let fails := FailsInPass pass formula.tree grid selected
      (inPlace (replaceAll pass formula.tree (some answers) selected count)).report grid = report
      ∧ (¬ Fits grid selected count → report.polls = 0 ∧ ∃ error, report.result = .error error)
      ∧ (Fits grid selected count →
          ∃ k j : ℕ∞,
            IsFirst (fun i => answers i = true) k
            ∧ IsFirst (fun t => ∃ error, fails t error) j
            ∧ (k ≤ j ∧ k < total →
                ∃ done : Nat, k = done ∧ report.polls = done + 1
                  ∧ report.result = .error (.cancelled done total)
                  ∧ (ApplyError.cancelled done total).message
                    = "Cancelled after " ++ toString done ++ " of " ++ toString total ++ " frames")
            ∧ (¬ (k ≤ j ∧ k < total) ∧ j < total →
                ∃ (t : Nat) (error : EvalError), j = t ∧ fails t error ∧ report.polls = t + 1
                  ∧ report.result = .error (.evaluation error)
                  ∧ ∀ source, compile source = .ok formula → pass.evaluator.functions.Total
                      → error.IsOfFormula)
            ∧ (¬ (k ≤ j ∧ k < total) ∧ ¬ j < total →
                report.polls = total ∧ report.result = .ok none)) := by
  intro report total fails
  refine ⟨report_replaceAll pass _ formula selected count grid, fun refused => ?_, fun fits => ?_⟩
  · cases passed : checkFrames grid selected count with
    | error error => simp [report, reportMulti, applyMulti, passed]
    | ok chosen => exact absurd (checkFrames_ok_iff.mp ⟨chosen, passed⟩) refused
  · obtain ⟨chosen, passed⟩ := checkFrames_ok_iff.mpr fits
    obtain ⟨s, -, rfl, found, -, -, -⟩ := checkFrames_ok passed
    obtain ⟨k, isFirstStop⟩ := exists_isFirst fun i => answers i = true
    obtain ⟨j, isFirstFailure⟩ := exists_isFirst fun t => ∃ error, fails t error
    refine ⟨k, j, isFirstStop, isFirstFailure, ?_⟩
    obtain ⟨outcome, ending, result, polls⟩ : ∃ outcome,
        Ending pass formula.tree answers total chosen 0 grid.frames outcome
        ∧ report.result = outcome.1.map (fun _ => none) ∧ report.polls = outcome.2 :=
      reportMulti_ending passed
    -- among frames that are gone through is neither an answer that stops nor a failure
    have neither : ∀ {n}, Clear pass formula.tree answers total chosen 0 grid.frames n
        → (∀ i < n, ¬ answers i = true) ∧ ∀ t < n, ¬ ∃ error, fails t error := by
      intro n clear
      refine ⟨fun i earlier => by simpa using (clear i earlier).1, fun t earlier failure => ?_⟩
      obtain ⟨error, frame, chosen', here, found', failing⟩ := failure
      obtain rfl : chosen = chosen' := Option.some.inj (found.symm.trans found')
      exact (clear t earlier).2 frame error here (by rwa [Nat.zero_add])
    cases ending with
    | stopped n inside clear stops =>
        rw [Nat.zero_add] at result polls stops
        obtain ⟨noStop, noFailure⟩ := neither clear
        obtain rfl := isFirstStop.eq noStop stops
        have asked : (n : ℕ∞) ≤ j ∧ (n : ℕ∞) < total :=
          ⟨isFirstFailure.le noFailure, by exact_mod_cast inside⟩
        exact ⟨fun _ => ⟨n, rfl, polls, result, rfl⟩, fun other => absurd asked other.1,
          fun other => absurd asked other.1⟩
    | failed n frame error clear goesOn here failing =>
        rw [Nat.zero_add] at result polls goesOn failing
        obtain ⟨noStop, noFailure⟩ := neither clear
        have failure : fails n error := ⟨frame, chosen, here, found, failing⟩
        obtain rfl := isFirstFailure.eq noFailure ⟨error, failure⟩
        have later : ((n + 1 : Nat) : ℕ∞) ≤ k := by
          refine isFirstStop.le fun i earlier => ?_
          rcases Nat.lt_succ_iff_lt_or_eq.mp earlier with before | rfl
          · exact noStop i before
          · simp [goesOn]
        have notFirst : ¬ k ≤ n := fun first => by
          have : n + 1 ≤ n := by exact_mod_cast later.trans first
          omega
        have inside : (n : ℕ∞) < total := by
          exact_mod_cast (List.getElem?_eq_some_iff.mp here).1
        exact ⟨fun other => absurd other.1 notFirst,
          fun _ => ⟨n, error, rfl, failure, polls, result,
            fun _ accepted total => failing.isOfFormula total (wellFormed_of_compile accepted)⟩,
          fun other => absurd inside other.2⟩
    | finished rows clear =>
        rw [Nat.zero_add] at polls
        obtain ⟨noStop, noFailure⟩ := neither clear
        have noStop : (total : ℕ∞) ≤ k := isFirstStop.le noStop
        have noFailure : (total : ℕ∞) ≤ j := isFirstFailure.le noFailure
        exact ⟨fun other => absurd other.2 noStop.not_gt,
          fun other => absurd other.2 noFailure.not_gt, fun _ => ⟨polls, result⟩⟩

/-- Two frames of which the second one uses an unknown name, and a caller that stops at the second
question: the question comes first.
-/
theorem first_stop_or_failure_wins_tie
    : let formula : Compiled := ⟨.binary .both (.var "y") (.var "nope"), true, false, "y && nope"⟩
      let grid : Grid := ⟨.lists, [[0.25], [1.0]]⟩
      let report := reportMulti (.ofSettings .default) formula (some fun i => i == 1) grid 0 1
      Fits grid 0 1
      ∧ (∃ error, FailsInPass (.ofSettings .default) formula.tree grid 0 1 error)
      ∧ report.result = .error (.cancelled 1 2)
      ∧ report.polls = 2 := by
  intro formula grid report
  have fits : Fits grid 0 1 := ⟨by decide, by decide, by decide, by simp [grid]⟩
  have failure : ∃ error, FailsInPass (.ofSettings .default) formula.tree grid 0 1 error := by
    refine ⟨.unknownVariable "nope", _, _, rfl, rfl, failsAt_iff.mpr ?_⟩
    dsimp only [formula, grid, Grid.frameCount]
    rfl
  have valued : ∀ t < 1,
      ¬ ∃ error, FailsInPass (.ofSettings .default) formula.tree grid 0 t error := by
    rintro t first ⟨error, frame, chosen, here, found, failing⟩
    obtain rfl : 0 = t := by omega
    obtain rfl : [0.25] = frame := by simpa [grid] using here
    obtain rfl : [0.25] = chosen := by simpa [grid] using found
    have value : evaluateFrame (.ofSettings .default) formula.tree (unitPosition 2 0)
        (centred (unitPosition 2 0)) [0.25] [0.25] = .ok _ := rfl
    cases value.symm.trans (failsAt_iff.mp failing)
  obtain ⟨k, j, stop, fails, cancelled, -, -⟩ :=
    (first_stop_or_failure_wins (.ofSettings .default) formula (fun i => i == 1) grid 0 1).2.2 fits
  obtain rfl : k = (1 : Nat) := stop.eq (by decide) (by decide)
  obtain ⟨done, asked, polls, result, -⟩ :=
    cancelled ⟨fails.le valued, by decide⟩
  obtain rfl : 1 = done := by exact_mod_cast asked
  exact ⟨fits, failure, result, polls⟩

end Wavetable.Grid
