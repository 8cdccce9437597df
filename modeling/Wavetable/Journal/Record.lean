import Wavetable.Journal.Clock
import Wavetable.Journal.Fields
import Wavetable.Journal.Level

/-!
Records: what has been noted, when and by whom.
-/

namespace Wavetable.Journal

/-- The error that a record tells of: one with its kind, the full name of the kind and what it
says, or the current error of a caller that has none.
-/
inductive Cause
  | raised (kind fullName message : String)
  | absent
  deriving Repr, DecidableEq

/-- The kind of an error; without an error the general one. -/
def Cause.kind : Cause → String
  | .raised kind _ _ => kind
  | .absent => "Exception"

/-- What an error says. -/
def Cause.message? : Cause → Option String
  | .raised _ _ message => some message
  | .absent => none

/-- The line that shows an error. -/
def Cause.trace : Cause → String
  | .raised _ fullName message =>
      if message.isEmpty then fullName else fullName ++ ": " ++ message
  | .absent => "NoneType: None"

structure Record where
  logger : String
  level : Level
  clock : Clock
  message : String
  fields : Fields
  cause : Option Cause

end Wavetable.Journal
