import Wavetable.Number.Rounding

/-!
Wavetables: frames of samples, held as lists of doubles, or as a block of doubles or of
single-precision numbers. What is written into a block of single precision is rounded.
-/

namespace Wavetable

/-- How the samples of a grid are held. -/
inductive Storage
  | lists
  | doubles
  | singles
  deriving Repr, DecidableEq

/-- A sample as it is held. -/
def Storage.hold : Storage → Float → Float
  | .singles, x => Number.toSingle x
  | _, x => x

/-- The samples are held in one block, whose dimensions cannot be negative. -/
def Storage.isBlock : Storage → Bool
  | .lists => false
  | _ => true

/-- Frames of samples. -/
structure Grid where
  storage : Storage
  frames : List (List Float)
  deriving Repr

namespace Grid

/-- A grid of the given samples, as they are held. -/
def ofFrames (storage : Storage) (frames : List (List Float)) : Grid :=
  ⟨storage, frames.map (·.map storage.hold)⟩

/-- The number of frames. -/
def frameCount (grid : Grid) : Nat :=
  grid.frames.length

end Grid

end Wavetable
