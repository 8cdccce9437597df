import Wavetable.Formula.Compiled
import Wavetable.Formula.Evaluation
import Wavetable.Grid.Basic
import Wavetable.Grid.Clamp
import Wavetable.Grid.Position
import Wavetable.Grid.Random
import Wavetable.Settings.Basic

/-!
Formulas applied to grids. A formula without frame variables replaces the selected frame, any
other replaces all frames. All samples are computed from the grid as it was, and the grid is
written only when the whole pass has succeeded.
-/

namespace Wavetable.Grid

open Formula

/-- Why a formula is not applied. -/
inductive ApplyError
  | invalidFrame (index : Int)
  | invalidCount (count : Int)
  | frameLength
  | frameLengthAt (index : Nat)
  | evaluation (error : EvalError)
  | cancelled (done total : Nat)
  | negativeSize
  | fractionalFrames
  deriving Repr, DecidableEq

def ApplyError.message : ApplyError → String
  | .invalidFrame index => "Invalid frame index: " ++ toString index
  | .invalidCount count => "Invalid sample count: " ++ toString count
  | .frameLength => "Frame sample count mismatch"
  | .frameLengthAt index => "Frame " ++ toString index ++ " sample count mismatch"
  | .evaluation error => error.message
  | .cancelled done total =>
      "Cancelled after " ++ toString done ++ " of " ++ toString total ++ " frames"
  | .negativeSize => "negative dimensions are not allowed"
  | .fractionalFrames => "the number of frames is not whole"

/-- What a pass needs besides the formula and the grid. -/
structure Pass where
  evaluator : Evaluator
  seed : Int
  low : Float
  high : Float

/-- The pass that settings describe. -/
def Pass.ofSettings (settings : Settings) : Pass where
  evaluator := ⟨.default, settings.tolerance.ceiling⟩
  seed := settings.randomSeed
  low := settings.clampLow.toFloat
  high := settings.clampHigh.toFloat

/-- A sample of a frame before the pass: its place and what the formula can see of it. -/
structure Slot where
  w : Float
  input : Float
  selected : Float
  random : Float

/-- The samples of a frame before the pass. -/
def slots (seed : Int) (frame selected : List Float) : List Slot :=
  let count := frame.length
  let places := (unitPositions count).zip (frame.zip (selected.zip (Random.table seed count)))
  places.map fun (w, input, selected, random) => ⟨w, input, selected, random⟩

/-- The context of a sample in a frame at a position. -/
def Slot.context (slot : Slot) (y z : Float) : Context :=
  { x := centred slot.w, w := slot.w, y := y, z := z, input := slot.input,
    selected := slot.selected, random := slot.random, q := none }

/-- The values of a formula for samples, up to the first that has none. -/
def evaluateSlots (evaluator : Evaluator) (tree : Expr) (y z : Float)
    : List Slot → Except EvalError (List Float)
  | [] => .ok []
  | slot :: rest =>
      match evaluator.value (slot.context y z) tree with
      | .error error => .error error
      | .ok x =>
          match evaluateSlots evaluator tree y z rest with
          | .error error => .error error
          | .ok xs => .ok (x :: xs)

/-- The values of a formula for a frame, not yet limited. -/
def evaluateFrame (pass : Pass) (tree : Expr) (y z : Float) (frame selected : List Float)
    : Except EvalError (List Float) :=
  evaluateSlots pass.evaluator tree y z (slots pass.seed frame selected)

/-- Values as they are written into a grid. -/
def written (pass : Pass) (storage : Storage) (values : List Float) : List Float :=
  values.map fun x => storage.hold (clamp pass.low pass.high x)

/-- The index of the selected frame and the count of samples, if both are in range. -/
def checkSelection (grid : Grid) (selected count : Int) : Except ApplyError (Nat × Nat) :=
  if selected < 0 ∨ grid.frameCount ≤ selected then .error (.invalidFrame selected)
  else if count ≤ 0 then .error (.invalidCount count)
  else .ok (selected.toNat, count.toNat)

/-- The selected frame, if it has the given length. -/
def checkFrame (grid : Grid) (selected count : Int) : Except ApplyError (Nat × List Float) := do
  let (index, length) ← checkSelection grid selected count
  let frame := grid.frames.getD index []
  if frame.length = length then pure (index, frame) else throw .frameLength

/-- The index of the first frame of another length. -/
def wrongLength? (length : Nat) (grid : Grid) : Option Nat :=
  grid.frames.findIdx? fun frame => frame.length ≠ length

/-- The selected frame, if all frames have the given length. -/
def checkFrames (grid : Grid) (selected count : Int) : Except ApplyError (List Float) := do
  let (index, length) ← checkSelection grid selected count
  match wrongLength? length grid with
  | some wrong => throw (.frameLengthAt wrong)
  | none => pure (grid.frames.getD index [])

/-- The grid after a formula has replaced the selected frame. -/
def applySingle (pass : Pass) (tree : Expr) (grid : Grid) (selected count : Int)
    : Except ApplyError Grid := do
  let (index, frame) ← checkFrame grid selected count
  match evaluateFrame pass tree 0.0 0.0 frame frame with
  | .error error => throw (.evaluation error)
  | .ok values =>
      pure { grid with frames := grid.frames.set index (written pass grid.storage values) }

/-- The caller's wish to stop, asked for before each frame by the number of the question. -/
abbrev CancelCheck := Option (Nat → Bool)

/-- The caller wishes to stop when asked for the given time. -/
def CancelCheck.stops (check : CancelCheck) (poll : Nat) : Bool :=
  match check with
  | some answer => answer poll
  | none => false

/-- The values of all frames from an index on, and how many frames were begun. -/
def evaluateFrames (pass : Pass) (tree : Expr) (check : CancelCheck) (total : Nat)
    (selected : List Float) : Nat → List (List Float) → Except ApplyError (List (List Float)) × Nat
  | done, [] => (.ok [], done)
  | done, frame :: rest =>
      if CancelCheck.stops check done then (.error (.cancelled done total), done + 1)
      else
        let y := unitPosition total done
        match evaluateFrame pass tree y (centred y) frame selected with
        | .error error => (.error (.evaluation error), done + 1)
        | .ok values =>
            match evaluateFrames pass tree check total selected (done + 1) rest with
            | (.error error, begun) => (.error error, begun)
            | (.ok others, begun) => (.ok (values :: others), begun)

/-- The number of times that the caller was asked. -/
def polls (check : CancelCheck) (begun : Nat) : Nat :=
  if check.isSome then begun else 0

/-- The grid after a formula has replaced all frames, and how often the caller was asked. -/
def applyMulti (pass : Pass) (tree : Expr) (check : CancelCheck) (grid : Grid)
    (selected count : Int) : Except ApplyError Grid × Nat :=
  match checkFrames grid selected count with
  | .error error => (.error error, 0)
  | .ok frame =>
      match evaluateFrames pass tree check grid.frameCount frame 0 grid.frames with
      | (.error error, begun) => (.error error, polls check begun)
      | (.ok frames, begun) =>
          (.ok { grid with frames := frames.map (written pass grid.storage) }, polls check begun)

/-- The number of frames of a new table, which has to be given as a whole number. One frame, of
which no copies are needed, may be given to a block as a double too.
-/
def tableSize? (storage : Storage) (frameCount : Settings.Numeric) : Option Int :=
  match frameCount.whole? with
  | some frames => some frames
  | none => if storage.isBlock ∧ frameCount.same (.whole 1) then some 1 else none

/-- A table of copies of the only frame of a grid, or of silent frames where there is none. -/
def expand (grid : Grid) (count : Int) (frameCount : Settings.Numeric)
    : Except ApplyError Grid :=
  if grid.storage.isBlock ∧ grid.frames.isEmpty ∧ count < 0 then .error .negativeSize
  else
    match tableSize? grid.storage frameCount with
    | none => .error .fractionalFrames
    | some frames =>
        let frame := grid.frames.headD (List.replicate count.toNat 0.0)
        .ok { grid with frames := List.replicate frames.toNat frame }

/-- The result of applying a formula: the grid that was written, which is new or the caller's, and
in any case what the caller's grid holds afterwards.
-/
structure Report where
  result : Except ApplyError (Option Grid)
  grid : Grid
  polls : Nat

/-- A grid with at most one frame is too small for a formula with frame variables. -/
def needsExpansion (grid : Grid) : Bool :=
  grid.frameCount ≤ 1

/-- The index nearest to the given one at which a grid has a frame. -/
def nearestIndex (grid : Grid) (selected : Int) : Int :=
  max 0 (min selected (grid.frameCount - 1))

/-- The report of replacing the selected frame of the caller's grid. -/
def reportSingle (pass : Pass) (formula : Compiled) (grid : Grid) (selected count : Int)
    : Report :=
  match applySingle pass formula.tree grid selected count with
  | .ok written => ⟨.ok none, written, 0⟩
  | .error error => ⟨.error error, grid, 0⟩

/-- The report of replacing all frames of the caller's grid. -/
def reportMulti (pass : Pass) (formula : Compiled) (check : CancelCheck) (grid : Grid)
    (selected count : Int) : Report :=
  match applyMulti pass formula.tree check grid selected count with
  | (.ok written, asked) => ⟨.ok none, written, asked⟩
  | (.error error, asked) => ⟨.error error, grid, asked⟩

/-- The report of a formula with frame variables: a grid that is too small is left alone, and a
new one is written.
-/
def reportTable (pass : Pass) (frameCount : Settings.Numeric) (formula : Compiled)
    (check : CancelCheck) (grid : Grid) (selected count : Int) : Report :=
  if needsExpansion grid then
    match expand grid count frameCount with
    | .error error => ⟨.error error, grid, 0⟩
    | .ok table =>
        match applyMulti pass formula.tree check table (nearestIndex table selected) count with
        | (.ok written, asked) => ⟨.ok (some written), grid, asked⟩
        | (.error error, asked) => ⟨.error error, grid, asked⟩
  else reportMulti pass formula check grid (nearestIndex grid selected) count

/-- The report of applying a formula as its mode calls for. -/
def apply (pass : Pass) (frameCount : Settings.Numeric) (formula : Compiled) (check : CancelCheck)
    (grid : Grid) (selected count : Int) : Report :=
  match formula.mode with
  | .singleFrame => reportSingle pass formula grid selected count
  | .multiFrame => reportTable pass frameCount formula check grid selected count

end Wavetable.Grid
