import Wavetable.Catalogue.History

/-!
What happens to an open catalogue and around it: its own events, and other programs that put
something in the place of its files.
-/

namespace Wavetable.Catalogue

/-- An event of the catalogue, or a change of its files by another program. A file may also come or
go in the place of the directory of the state, which blocks it.
-/
inductive Turn
  | own (event : Event)
  | putBundle (isMultiFrame : Bool) (file : Text.File)
  | putState (file : Text.File)
  | block (blocked : Bool)
  deriving Repr, DecidableEq

/-- A bundled file. -/
def Disk.bundle (disk : Disk) (isMultiFrame : Bool) : Text.File :=
  if isMultiFrame then disk.multis else disk.singles

def Disk.withBundle (disk : Disk) (isMultiFrame : Bool) (file : Text.File) : Disk :=
  if isMultiFrame then { disk with multis := file } else { disk with singles := file }

/-- The catalogue with other files. -/
def Session.withDisk (session : Session) (disk : Disk) : Session :=
  { session with disk := disk }

/-- The catalogue after a turn, whether or not an event fails. -/
def Turn.perform (outside : Outside) (session : Session) : Turn → Session
  | .own event => (event.perform outside session).2
  | .putBundle isMultiFrame file => session.withDisk (session.disk.withBundle isMultiFrame file)
  | .putState file => session.withDisk { session.disk with state := file }
  | .block blocked => session.withDisk { session.disk with blocked := blocked }

/-- Turns with the times at which they happen. -/
abbrev Turns := List (Timestamp × Turn)

/-- The catalogue after turns, one after the other. -/
def Session.afterTurns (ids : Nat → Uuid) (session : Session) : Turns → Session
  | [] => session
  | (now, turn) :: rest => (turn.perform ⟨ids, now⟩ session).afterTurns ids rest

/-- A turn that leaves a bundled file as it is. -/
def Turn.keepsBundle (isMultiFrame : Bool) : Turn → Bool
  | .putBundle other _ => other != isMultiFrame
  | _ => true

end Wavetable.Catalogue
