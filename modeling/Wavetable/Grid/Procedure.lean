import Wavetable.Grid.Apply

/-!
Applying a formula as a procedure on memory. The caller's grid is read, the caller may be asked
before each frame whether to stop, and frames are written in place, one after the other. What a
procedure has written before it fails stays written.
-/

namespace Wavetable.Grid

open Formula

/-- The caller's grid, and how often the caller was asked. -/
structure Memory where
  grid : Grid
  polls : Nat

/-- A procedure works on memory until it ends or fails. -/
abbrev Procedure := ExceptT ApplyError (StateM Memory)

namespace Procedure

/-- What a procedure comes to, and the memory as it is then. -/
def run (procedure : Procedure α) (memory : Memory) : Except ApplyError α × Memory :=
  StateT.run (ExceptT.run procedure) memory

/-- What a procedure leaves of the caller's grid, with the new grid that it made, if any. -/
def report (procedure : Procedure (Option Grid)) (grid : Grid) : Report :=
  let (result, memory) := procedure.run ⟨grid, 0⟩
  ⟨result, memory.grid, memory.polls⟩

/-- The grid as it stands. -/
def read : Procedure Grid :=
  return (← get).grid

/-- A step that does not depend on memory. -/
def attempt (result : Except ApplyError α) : Procedure α :=
  MonadExcept.ofExcept result

/-- The caller is asked before a frame, and may stop the procedure. -/
def ask (check : CancelCheck) (done total : Nat) : Procedure Unit :=
  match check with
  | none => pure ()
  | some answer => do
      modify fun memory => { memory with polls := memory.polls + 1 }
      if answer done then throw (.cancelled done total)

/-- The values of a formula for a frame. -/
def compute (pass : Pass) (tree : Expr) (y z : Float) (frame selected : List Float)
    : Procedure (List Float) :=
  attempt ((evaluateFrame pass tree y z frame selected).mapError .evaluation)

/-- The values of a formula for frames from an index on, each after a question to the caller. -/
def computeAll (pass : Pass) (tree : Expr) (check : CancelCheck) (total : Nat)
    (selected : List Float) : Nat → List (List Float) → Procedure (List (List Float))
  | _, [] => return []
  | done, frame :: rest => do
      ask check done total
      let y := unitPosition total done
      let values ← compute pass tree y (centred y) frame selected
      let others ← computeAll pass tree check total selected (done + 1) rest
      return values :: others

/-- A frame is written in place. -/
def write (pass : Pass) (index : Nat) (values : List Float) : Procedure Unit :=
  modify fun memory =>
    let grid := memory.grid
    { memory with
      grid := { grid with frames := grid.frames.set index (written pass grid.storage values) } }

/-- Frames are written in place, from an index on. -/
def writeAll (pass : Pass) : Nat → List (List Float) → Procedure Unit
  | _, [] => return ()
  | index, values :: rest => do
      write pass index values
      writeAll pass (index + 1) rest

/-- A formula replaces the selected frame. -/
def replaceSelected (pass : Pass) (tree : Expr) (selected count : Int) : Procedure Unit := do
  let grid ← read
  let (index, frame) ← attempt (checkFrame grid selected count)
  let values ← compute pass tree 0.0 0.0 frame frame
  write pass index values

/-- A formula replaces all frames, once the values of all of them are known. -/
def replaceAll (pass : Pass) (tree : Expr) (check : CancelCheck) (selected count : Int)
    : Procedure Unit := do
  let grid ← read
  let frame ← attempt (checkFrames grid selected count)
  let rows ← computeAll pass tree check grid.frameCount frame 0 grid.frames
  writeAll pass 0 rows

/-- A procedure on the caller's grid, which makes no new one. -/
def inPlace (procedure : Procedure Unit) : Procedure (Option Grid) := do
  procedure
  return none

/-- A procedure works on a new grid, and the caller's stays out of its reach. -/
def onNew (table : Grid) (procedure : Procedure Unit) : Procedure Grid := fun memory =>
  let (result, written) := procedure.run ⟨table, memory.polls⟩
  (result.map fun _ => written.grid, { memory with polls := written.polls })

/-- A formula is applied as its mode calls for; a new grid that is made on the way is returned. -/
def applyByMode (pass : Pass) (frameCount : Settings.Numeric) (formula : Compiled)
    (check : CancelCheck) (selected count : Int) : Procedure (Option Grid) := do
  match formula.mode with
  | .singleFrame => inPlace (replaceSelected pass formula.tree selected count)
  | .multiFrame =>
      let grid ← read
      if needsExpansion grid then
        let table ← attempt (expand grid count frameCount)
        let index := nearestIndex table selected
        return some (← onNew table (replaceAll pass formula.tree check index count))
      else inPlace (replaceAll pass formula.tree check (nearestIndex grid selected) count)

end Procedure

end Wavetable.Grid
