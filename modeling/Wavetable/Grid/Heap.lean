import Wavetable.Grid.Procedure

/-!
Grids whose frames stand at addresses. Whoever holds a grid holds the addresses of its frames, so a
frame may belong to several grids, and what is written to it shows in all of them. A table that is
made for a formula with frame variables consists of frames at new addresses.
-/

namespace Wavetable.Grid

open Formula

/-- All frames, by their addresses, and how often the caller was asked. -/
structure Heap where
  frames : List (List Float)
  polls : Nat

/-- A grid as it is held: the addresses of its frames. -/
structure Held where
  storage : Storage
  addresses : List Nat
  deriving DecidableEq

/-- The grid that is held, with its frames as they stand. -/
def Held.grid (held : Held) (frames : List (List Float)) : Grid :=
  ⟨held.storage, held.addresses.map fun address => frames.getD address []⟩

/-- Work on a heap goes on until it ends or fails. -/
abbrev Work := ExceptT ApplyError (StateM Heap)

namespace Work

/-- What work comes to, and the heap as it is then. -/
def run (work : Work α) (heap : Heap) : Except ApplyError α × Heap :=
  StateT.run (ExceptT.run work) heap

/-- A copy of the grid that is held. -/
def snapshot (held : Held) : Work Grid :=
  return held.grid (← get).frames

/-- A step that does not depend on the heap. -/
def attempt (result : Except ApplyError α) : Work α :=
  MonadExcept.ofExcept result

/-- A procedure works on a copy of a grid; only its questions to the caller outlast it. -/
def onCopy (grid : Grid) (procedure : Procedure α) : Work α := fun heap =>
  let (result, memory) := procedure.run ⟨grid, heap.polls⟩
  (result, { heap with polls := memory.polls })

/-- A frame is written in place. -/
def write (address : Nat) (frame : List Float) : Work Unit :=
  modify fun heap => { heap with frames := heap.frames.set address frame }

/-- A frame of a grid is written in place. -/
def writeAt (held : Held) (index : Nat) (frame : List Float) : Work Unit :=
  match held.addresses[index]? with
  | some address => write address frame
  | none => return ()

/-- Frames are written in place, each at the address that has the same index. -/
def writeAll : List Nat → List (List Float) → Work Unit
  | address :: addresses, frame :: frames => do
      write address frame
      writeAll addresses frames
  | _, _ => return ()

/-- A frame gets a new address. -/
def allocate (frame : List Float) : Work Nat := do
  let address := (← get).frames.length
  modify fun heap => { heap with frames := heap.frames ++ [frame] }
  return address

/-- Frames get new addresses, one after the other. -/
def allocateAll : List (List Float) → Work (List Nat)
  | [] => return []
  | frame :: frames => do
      let address ← allocate frame
      let addresses ← allocateAll frames
      return address :: addresses

/-- A formula replaces the selected frame of a grid. -/
def replaceSelected (pass : Pass) (tree : Expr) (held : Held) (selected count : Int)
    : Work Unit := do
  let grid ← snapshot held
  let (index, frame) ← attempt (checkFrame grid selected count)
  let values ← onCopy grid (Procedure.compute pass tree 0.0 0.0 frame frame)
  writeAt held index (written pass held.storage values)

/-- A formula replaces all frames of a grid. -/
def replaceAll (pass : Pass) (tree : Expr) (check : CancelCheck) (held : Held)
    (selected count : Int) : Work Unit := do
  let grid ← snapshot held
  let frame ← attempt (checkFrames grid selected count)
  let rows ← onCopy grid
    (Procedure.computeAll pass tree check grid.frameCount frame 0 grid.frames)
  writeAll held.addresses (rows.map (written pass held.storage))

/-- A table of copies of the only frame of a grid, or of silent frames where there is none. -/
def expand (held : Held) (count : Int) (frameCount : Settings.Numeric) : Work Held := do
  let table ← attempt (Grid.expand (← snapshot held) count frameCount)
  return ⟨table.storage, ← allocateAll table.frames⟩

/-- Work on a grid, which is returned. -/
def inPlace (held : Held) (work : Work Unit) : Work Held := do
  work
  return held

/-- A formula is applied to a grid as its mode calls for. The grid that was written is returned. -/
def applyByMode (pass : Pass) (frameCount : Settings.Numeric) (formula : Compiled)
    (check : CancelCheck) (held : Held) (selected count : Int) : Work Held := do
  match formula.mode with
  | .singleFrame => inPlace held (replaceSelected pass formula.tree held selected count)
  | .multiFrame =>
      let grid ← snapshot held
      let target ← if needsExpansion grid then expand held count frameCount else pure held
      let index := nearestIndex (← snapshot target) selected
      inPlace target (replaceAll pass formula.tree check target index count)

end Work

end Wavetable.Grid
