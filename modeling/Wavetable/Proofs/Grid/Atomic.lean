import Mathlib.Data.List.Basic
import Wavetable.Editor
import Wavetable.Grid.Procedure
import Wavetable.Proofs.Grid.Pass

/-!
A formula that is not applied leaves the caller's grid as it was. The procedures consist of parts
that leave the grid alone and of parts that cannot fail, and whatever writes stands behind all that
may fail.
-/

namespace Wavetable.Grid

open Formula

namespace Procedure

section
variable {α β : Type}

/-- A procedure leaves the grid alone, however it ends. -/
def Reads (procedure : Procedure α) : Prop :=
  ∀ memory, (procedure.run memory).2.grid = memory.grid

/-- A procedure does not fail. -/
def Succeeds (procedure : Procedure α) : Prop :=
  ∀ memory, ∃ x behind, procedure.run memory = (.ok x, behind)

/-- A procedure that fails leaves the grid alone. -/
def Atomic (procedure : Procedure α) : Prop :=
  ∀ memory error behind, procedure.run memory = (.error error, behind) → behind.grid = memory.grid

theorem run_bind (procedure : Procedure α) (next : α → Procedure β) (memory : Memory)
    : (procedure >>= next).run memory
      = match procedure.run memory with
        | (.ok x, behind) => (next x).run behind
        | (.error error, behind) => (.error error, behind) := by
  show (ExceptT.bindCont next (procedure.run memory).1 : Procedure β) (procedure.run memory).2 = _
  rcases procedure.run memory with ⟨_ | _, behind⟩ <;> rfl

@[simp]
theorem run_pure (x : α) (memory : Memory) : (pure x : Procedure α).run memory = (.ok x, memory) :=
  rfl

@[simp]
theorem run_read (memory : Memory) : read.run memory = (.ok memory.grid, memory) :=
  rfl

@[simp]
theorem run_attempt (result : Except ApplyError α) (memory : Memory)
    : (attempt result).run memory = (result, memory) := by
  cases result <;> rfl

/-- A question is counted, whatever the answer. -/
theorem run_ask (check : CancelCheck) (done total : Nat) (grid : Grid)
    : (ask check done total).run ⟨grid, polls check done⟩
      = (if CancelCheck.stops check done then .error (.cancelled done total) else .ok (),
          ⟨grid, polls check (done + 1)⟩) := by
  cases check with
  | none => rfl
  | some answer =>
      cases stopped : answer done <;>
        simp [ask, CancelCheck.stops, stopped, run_bind, polls] <;> rfl

@[simp]
theorem run_write (pass : Pass) (index : Nat) (values : List Float) (memory : Memory)
    : (write pass index values).run memory
      = (.ok (),
          ⟨⟨memory.grid.storage,
            memory.grid.frames.set index (written pass memory.grid.storage values)⟩,
            memory.polls⟩) :=
  rfl

@[simp]
theorem run_onNew (table : Grid) (procedure : Procedure Unit) (memory : Memory)
    : (onNew table procedure).run memory
      = ((procedure.run ⟨table, memory.polls⟩).1.map fun _ =>
            (procedure.run ⟨table, memory.polls⟩).2.grid,
          ⟨memory.grid, (procedure.run ⟨table, memory.polls⟩).2.polls⟩) :=
  rfl

-----------------------------------------------------------------------------------------
-- Parts that only read and parts that cannot fail
-----------------------------------------------------------------------------------------

theorem Reads.bind {procedure : Procedure α} {next : α → Procedure β} (first : Reads procedure)
    (second : ∀ x, Reads (next x))
    : Reads (procedure >>= next) := by
  intro memory
  have kept := first memory
  rw [run_bind]
  split
  next x behind ran => rw [second x behind, ← kept, ran]
  next error behind ran => rw [← kept, ran]

theorem Succeeds.bind {procedure : Procedure α} {next : α → Procedure β}
    (first : Succeeds procedure) (second : ∀ x, Succeeds (next x))
    : Succeeds (procedure >>= next) := by
  intro memory
  obtain ⟨x, behind, ran⟩ := first memory
  rw [run_bind, ran]
  exact second x behind

theorem Succeeds.atomic {procedure : Procedure α} (succeeds : Succeeds procedure)
    : Atomic procedure := by
  intro memory error behind failed
  obtain ⟨x, behind', ran⟩ := succeeds memory
  simp [ran] at failed

theorem Reads.atomic {procedure : Procedure α} (reads : Reads procedure) : Atomic procedure := by
  intro memory error behind failed
  have kept := reads memory
  rwa [failed] at kept

/-- What only reads may come before a procedure. -/
theorem Atomic.after_reads {procedure : Procedure α} {next : α → Procedure β}
    (first : Reads procedure) (second : ∀ x, Atomic (next x))
    : Atomic (procedure >>= next) := by
  intro memory error behind failed
  have kept := first memory
  rw [run_bind] at failed
  split at failed
  next x between ran =>
    rw [second x between error behind failed, ← kept, ran]
  next error' between ran =>
    obtain ⟨-, rfl⟩ := Prod.mk.inj failed
    rw [← kept, ran]

/-- What cannot fail may come behind a procedure. -/
theorem Atomic.before_succeeds {procedure : Procedure α} {next : α → Procedure β}
    (first : Atomic procedure) (second : ∀ x, Succeeds (next x))
    : Atomic (procedure >>= next) := by
  intro memory error behind failed
  rw [run_bind] at failed
  split at failed
  next x between ran =>
    obtain ⟨y, behind', ended⟩ := second x between
    simp [ended] at failed
  next error' between ran =>
    obtain ⟨-, rfl⟩ := Prod.mk.inj failed
    exact first memory error' between ran

theorem reads_pure (x : α) : Reads (pure x) :=
  fun _ => rfl

theorem reads_read : Reads read :=
  fun _ => rfl

theorem reads_attempt (result : Except ApplyError α) : Reads (attempt result) :=
  fun memory => by rw [run_attempt]

theorem reads_ask (check : CancelCheck) (done total : Nat) : Reads (ask check done total) := by
  cases check with
  | none => exact reads_pure ()
  | some answer =>
      refine Reads.bind (fun memory => rfl) fun _ => ?_
      cases answer done
      · exact reads_pure ()
      · exact reads_attempt (.error (.cancelled done total))

theorem succeeds_pure (x : α) : Succeeds (pure x) :=
  fun memory => ⟨x, memory, run_pure x memory⟩

theorem succeeds_write (pass : Pass) (index : Nat) (values : List Float)
    : Succeeds (write pass index values) :=
  fun _ => ⟨(), _, rfl⟩

/-- A new grid is made while the caller's stays. -/
theorem reads_onNew (table : Grid) (procedure : Procedure Unit) : Reads (onNew table procedure) :=
  fun _ => rfl

end

section
variable (pass : Pass) (tree : Expr) (check : CancelCheck)

/-- All values are computed from what was read, by induction on the frames. -/
theorem reads_computeAll (total : Nat) (selected : List Float) (done : Nat)
    (frames : List (List Float))
    : Reads (computeAll pass tree check total selected done frames) := by
  induction frames generalizing done with
  | nil => exact reads_pure []
  | cons frame rest ih =>
      refine (reads_ask check done total).bind fun _ => ?_
      refine (reads_attempt _).bind fun values => ?_
      exact (ih (done + 1)).bind fun others => reads_pure _

/-- Frames are written one after the other, by induction on what is written. -/
theorem succeeds_writeAll (index : Nat) (rows : List (List Float))
    : Succeeds (writeAll pass index rows) := by
  induction rows generalizing index with
  | nil => exact succeeds_pure ()
  | cons values rest ih => exact (succeeds_write pass index values).bind fun _ => ih (index + 1)

theorem atomic_replaceSelected (selected count : Int)
    : Atomic (replaceSelected pass tree selected count) := by
  refine .after_reads reads_read fun grid => ?_
  refine .after_reads (reads_attempt _) fun (index, frame) => ?_
  refine .after_reads (reads_attempt _) fun values => ?_
  exact (succeeds_write pass index values).atomic

theorem atomic_replaceAll (selected count : Int)
    : Atomic (replaceAll pass tree check selected count) := by
  refine .after_reads reads_read fun grid => ?_
  refine .after_reads (reads_attempt _) fun frame => ?_
  refine .after_reads (reads_computeAll pass tree check _ _ _ _) fun rows => ?_
  exact (succeeds_writeAll pass 0 rows).atomic

theorem atomic_inPlace {procedure : Procedure Unit} (atomic : Atomic procedure)
    : Atomic (inPlace procedure) :=
  atomic.before_succeeds fun _ => succeeds_pure none

theorem atomic_applyByMode (frameCount : Settings.Numeric) (formula : Compiled)
    (selected count : Int)
    : Atomic (applyByMode pass frameCount formula check selected count) := by
  unfold applyByMode
  cases formula.mode with
  | singleFrame =>
      exact atomic_inPlace (atomic_replaceSelected pass formula.tree selected count)
  | multiFrame =>
      refine .after_reads reads_read fun grid => ?_
      split
      next small =>
        -- the caller's grid is only read, whatever becomes of the new one
        refine Reads.atomic ?_
        refine (reads_attempt _).bind fun table => ?_
        exact (reads_onNew table _).bind fun written => reads_pure _
      next =>
        exact atomic_inPlace (atomic_replaceAll pass formula.tree check _ count)

-----------------------------------------------------------------------------------------
-- What the procedures come to
-----------------------------------------------------------------------------------------

/-- The values of all frames are computed as without memory, with as many questions as frames were
begun, by induction on the frames.
-/
theorem run_computeAll (total : Nat) (selected : List Float) (done : Nat)
    (frames : List (List Float)) (grid : Grid)
    : (computeAll pass tree check total selected done frames).run ⟨grid, polls check done⟩
      = let (result, begun) := evaluateFrames pass tree check total selected done frames
        (result, ⟨grid, polls check begun⟩) := by
  induction frames generalizing done with
  | nil => rfl
  | cons frame rest ih =>
      unfold computeAll evaluateFrames
      rw [run_bind, run_ask]
      cases stopped : CancelCheck.stops check done with
      | true => rfl
      | false =>
          simp only [Bool.false_eq_true, if_false, run_bind, compute, run_attempt]
          cases evaluateFrame pass tree (unitPosition total done)
              (centred (unitPosition total done)) frame selected with
          | error error => rfl
          | ok values =>
              simp only [Except.mapError, ih]
              rcases evaluateFrames pass tree check total selected (done + 1) rest with
                ⟨_ | others, begun⟩ <;> rfl

/-- Frames written one after the other take the places of those from an index on, by induction on
what is written.
-/
theorem run_writeAll (storage : Storage) (before : List (List Float)) {frames rows}
    (counted : rows.length = frames.length) (asked : Nat)
    : (writeAll pass before.length rows).run ⟨⟨storage, before ++ frames⟩, asked⟩
      = (.ok (), ⟨⟨storage, before ++ rows.map (written pass storage)⟩, asked⟩) := by
  induction rows generalizing before frames with
  | nil =>
      obtain rfl : frames = [] := by simpa using counted.symm
      rfl
  | cons values rest ih =>
      cases frames with
      | nil => simp at counted
      | cons frame frames =>
          have counted : rest.length = frames.length := by simpa using counted
          have later := ih (before ++ [written pass storage values]) counted
          simpa [writeAll, run_bind] using later

theorem run_replaceSelected (selected count : Int) (memory : Memory)
    : (replaceSelected pass tree selected count).run memory
      = match applySingle pass tree memory.grid selected count with
        | .ok after => (.ok (), ⟨after, memory.polls⟩)
        | .error error => (.error error, memory) := by
  simp only [replaceSelected, applySingle, run_bind, run_read, run_attempt, compute]
  cases checkFrame memory.grid selected count with
  | error error => rfl
  | ok choice =>
      obtain ⟨index, frame⟩ := choice
      simp only [bind, Except.bind]
      cases evaluateFrame pass tree 0.0 0.0 frame frame <;> rfl

theorem run_replaceAll (selected count : Int) (grid : Grid)
    : (replaceAll pass tree check selected count).run ⟨grid, 0⟩
      = match applyMulti pass tree check grid selected count with
        | (.ok after, asked) => (.ok (), ⟨after, asked⟩)
        | (.error error, asked) => (.error error, ⟨grid, asked⟩) := by
  have start : polls check 0 = 0 := by simp [polls]
  simp only [replaceAll, applyMulti, run_bind, run_read, run_attempt]
  cases checkFrames grid selected count with
  | error error => rfl
  | ok frame =>
      have computed := run_computeAll pass tree check grid.frameCount frame 0 grid.frames grid
      rw [start] at computed
      simp only [computed]
      cases evaluated : evaluateFrames pass tree check grid.frameCount frame 0 grid.frames with
      | mk result begun =>
          cases result with
          | error error => rfl
          | ok rows =>
              have counted := (evaluateFrames_getElem? evaluated).1
              exact run_writeAll pass grid.storage [] counted (polls check begun)

/-- The selected frame is replaced in memory as the report of it says. -/
theorem report_replaceSelected (formula : Compiled) (selected count : Int) (grid : Grid)
    : (inPlace (replaceSelected pass formula.tree selected count)).report grid
      = reportSingle pass formula grid selected count := by
  simp only [report, inPlace, run_bind, run_replaceSelected, reportSingle]
  cases applySingle pass formula.tree grid selected count <;> rfl

/-- All frames are replaced in memory as the report of it says. -/
theorem report_replaceAll (formula : Compiled) (selected count : Int) (grid : Grid)
    : (inPlace (replaceAll pass formula.tree check selected count)).report grid
      = reportMulti pass formula check grid selected count := by
  simp only [report, inPlace, run_bind, run_replaceAll, reportMulti]
  rcases applyMulti pass formula.tree check grid selected count with ⟨_ | _, asked⟩ <;> rfl

/-- A formula is applied in memory as the report of it says. -/
theorem report_applyByMode (frameCount : Settings.Numeric) (formula : Compiled)
    (selected count : Int) (grid : Grid)
    : (applyByMode pass frameCount formula check selected count).report grid
      = Grid.apply pass frameCount formula check grid selected count := by
  unfold applyByMode Grid.apply
  cases formula.mode with
  | singleFrame => exact report_replaceSelected pass formula selected count grid
  | multiFrame =>
      simp only [report, run_bind, run_read, reportTable]
      cases small : needsExpansion grid with
      | false => exact report_replaceAll pass check formula (nearestIndex grid selected) count grid
      | true =>
          simp only [if_true, run_bind, run_attempt]
          cases expand grid count frameCount with
          | error error => rfl
          | ok table =>
              simp only [run_onNew, run_replaceAll]
              rcases applyMulti pass formula.tree check table (nearestIndex table selected) count
                with ⟨_ | _, asked⟩ <;> rfl

end

theorem grid_report_of_atomic {procedure : Procedure (Option Grid)} (atomic : Atomic procedure)
    {grid : Grid} {error : ApplyError} (failed : (procedure.report grid).result = .error error)
    : (procedure.report grid).grid = grid := by
  unfold report at failed ⊢
  exact atomic ⟨grid, 0⟩ error _ (Prod.ext failed rfl)

end Procedure

open Procedure

/-- An editor whose formula is not applied has not touched the grid: it fails before a procedure
begins, or as that does.
-/
theorem grid_editor_of_failure {editor : Editor} {check : CancelCheck} {grid : Grid}
    {selected count : Int} {error : Editor.ApplyError}
    (failed : (editor.apply check grid selected count).result = .error error)
    : (editor.apply check grid selected count).grid = grid := by
  unfold Editor.apply at failed ⊢
  dsimp only at failed ⊢
  split
  next => rfl
  next written =>
    split
    next => rfl
    next formula compiled =>
      rw [if_neg written, compiled] at failed
      dsimp only at failed ⊢
      rw [← report_applyByMode] at failed ⊢
      split at failed
      next => contradiction
      next cause stopped =>
        exact grid_report_of_atomic
          (atomic_applyByMode _ check editor.settings.frameCount formula selected count) stopped

/-- Where the selected frame, all frames or what the mode calls for cannot be replaced, or an
editor's formula cannot be applied, the caller's grid is as it was. The three reports are what the
procedures come to that write frames in place.
-/
theorem failure_keeps_grid (pass : Pass) (frameCount : Settings.Numeric) (formula : Compiled)
    (check : CancelCheck) (grid : Grid) (selected count : Int) (editor : Editor)
    : (inPlace (replaceSelected pass formula.tree selected count)).report grid
        = reportSingle pass formula grid selected count
      ∧ (∀ error, (reportSingle pass formula grid selected count).result = .error error
          → (reportSingle pass formula grid selected count).grid = grid)
      ∧ (inPlace (replaceAll pass formula.tree check selected count)).report grid
        = reportMulti pass formula check grid selected count
      ∧ (∀ error, (reportMulti pass formula check grid selected count).result = .error error
          → (reportMulti pass formula check grid selected count).grid = grid)
      ∧ (applyByMode pass frameCount formula check selected count).report grid
        = apply pass frameCount formula check grid selected count
      ∧ (∀ error, (apply pass frameCount formula check grid selected count).result = .error error
          → (apply pass frameCount formula check grid selected count).grid = grid)
      ∧ ∀ error, (editor.apply check grid selected count).result = .error error
          → (editor.apply check grid selected count).grid = grid := by
  have single := report_replaceSelected pass formula selected count grid
  have multi := report_replaceAll pass check formula selected count grid
  have byMode := report_applyByMode pass check frameCount formula selected count grid
  refine ⟨single, fun error => ?_, multi, fun error => ?_, byMode, fun error => ?_,
    fun error => grid_editor_of_failure⟩
  · rw [← single]
    exact grid_report_of_atomic (atomic_inPlace (atomic_replaceSelected pass _ selected count))
  · rw [← multi]
    exact grid_report_of_atomic (atomic_inPlace (atomic_replaceAll pass _ check selected count))
  · rw [← byMode]
    exact grid_report_of_atomic (atomic_applyByMode pass check frameCount formula selected count)

/-- A formula that looks at an unknown name only in the second of two frames leaves the first one as
it was, as do a frame out of range and an editor without a text.
-/
theorem failure_keeps_grid_second_frame
    : let formula : Compiled := ⟨.binary .both (.var "y") (.var "nope"), true, false, "y && nope"⟩
      let grid : Grid := ⟨.lists, [[0.25, -0.5], [1.0, 0.0]]⟩
      let pass := Pass.ofSettings .default
      let unknown : ApplyError := .evaluation (.unknownVariable "nope")
      let editor := Editor.empty .default
      (reportSingle pass formula grid 2 2).result = .error (.invalidFrame 2)
      ∧ (reportSingle pass formula grid 2 2).grid = grid
      ∧ (reportMulti pass formula none grid 2 2).result = .error (.invalidFrame 2)
      ∧ (reportMulti pass formula none grid 2 2).grid = grid
      ∧ (apply pass (.whole 256) formula none grid 2 2).result = .error unknown
      ∧ (apply pass (.whole 256) formula none grid 2 2).grid = grid
      ∧ (editor.apply none grid 2 2).result = .error .emptyText
      ∧ (editor.apply none grid 2 2).grid = grid := by
  intro formula grid pass unknown editor
  have single : (reportSingle pass formula grid 2 2).result = .error (.invalidFrame 2) := rfl
  have multi : (reportMulti pass formula none grid 2 2).result = .error (.invalidFrame 2) := rfl
  have byMode : (apply pass (.whole 256) formula none grid 2 2).result = .error unknown := by
    dsimp only [formula, grid, pass, unknown]
    rfl
  have edited : (editor.apply none grid 2 2).result = .error .emptyText := rfl
  obtain ⟨-, keptSingle, -, keptMulti, -, keptByMode, keptEdited⟩ :=
    failure_keeps_grid pass (.whole 256) formula none grid 2 2 editor
  exact ⟨single, keptSingle _ single, multi, keptMulti _ multi, byMode, keptByMode _ byMode,
    edited, keptEdited _ edited⟩

end Wavetable.Grid
