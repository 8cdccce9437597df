import Wavetable.Text.File

/-!
The files of a catalogue: two bundled texts and the state of the user. The state is first written
to a temporary file, which then takes its place, so a failed write leaves the old state.
-/

namespace Wavetable.Catalogue

/-- The files, and what may stand in the way of writing the state: a file in the place of its
directory, or a full disk.
-/
structure Disk where
  singles : Text.File
  multis : Text.File
  state : Text.File
  blocked : Bool
  full : Bool
  temporaries : Nat
  deriving Repr, DecidableEq

inductive WriteError
  | directoryBlocked
  | noSpace
  | isDirectory
  deriving Repr, DecidableEq

namespace Disk

/-- The state as it can be seen: where its directory is no directory, there is none. -/
def visibleState (disk : Disk) : Text.File :=
  if disk.blocked then .missing else disk.state

/-- A temporary file takes the place of the state. -/
def rename (disk : Disk) (content : String) : Except WriteError Disk :=
  if disk.full then .error .noSpace
  else
    match disk.state with
    | .directory => .error .isDirectory
    | _ => .ok { disk with state := .text content, temporaries := disk.temporaries - 1 }

/-- The state written to a temporary file that then takes its place, or is removed again. -/
def write (disk : Disk) (content : String) : Except WriteError Unit × Disk :=
  if disk.blocked then (.error .directoryBlocked, disk)
  else
    let prepared := { disk with temporaries := disk.temporaries + 1 }
    match prepared.rename content with
    | .ok written => (.ok (), written)
    | .error error =>
        (.error error, { prepared with temporaries := prepared.temporaries - 1 })

end Disk

end Wavetable.Catalogue
