import Wavetable.Journal.Record
import Wavetable.Journal.Template

/-!
Notes: what a caller wants recorded, and when a note is refused.
-/

namespace Wavetable.Journal

/-- What a caller wants recorded. The logger is named below the root, which has no name itself. -/
structure Note where
  logger : Option String
  level : Level
  template : String
  arguments : List Json := []
  extra : Fields := []
  fields : Fields := []
  cause : Option Cause := none

/-- Why a note is refused: a field has the name of a part of the note, or an extra value would
replace an attribute of the record.
-/
inductive NoteError
  | takenName (name : String)
  | overwrites (name : String)
  deriving Repr, DecidableEq

def NoteError.message : NoteError → String
  | .takenName name => "a field cannot be named " ++ Text.quote name
  | .overwrites name => "Attempt to overwrite " ++ Text.quote name ++ " in LogRecord"

/-- The root of all loggers. -/
def rootName : String := "wavexpr"

/-- The full name of a logger; one without a name is the root. -/
def loggerName : Option String → String
  | none => rootName
  | some name => if name.isEmpty then rootName else rootName ++ "." ++ name

/-- A logger is one below the root. The dots of its name are looked for from its end, and one right
before another is missed. Where the name begins with dots, the one behind the root may so be missed,
and the logger has nothing above it, as no other logger of such a name has been asked for.
-/
def isBelowRoot : Option String → Bool
  | none => true
  | some name => (name.toList.takeWhile (· = '.')).length % 2 = 0

/-- The names that the parts of a note have. -/
def partNames : List String :=
  ["self", "level", "msg"]

/-- The name under which a note asks for the current error. -/
def errorSetting : String := "exc_info"

/-- The names of what is said about a note besides its fields. -/
def settingNames : List String :=
  ["extra", errorSetting, "stack_info", "stacklevel"]

/-- The first of the fields with one of the names. -/
def fieldNamed? (names : List String) (fields : Fields) : Option String :=
  (fields.map Prod.fst).find? names.contains

/-- The members of a value, none if it is no object. -/
def membersOf : Option Json → Fields
  | some (.object members) => members
  | _ => []

/-- The error of a note with named values: its own one, or the current error if they ask for it. -/
def Note.causeWith (note : Note) (values : Fields) : Option Cause :=
  match note.cause, Json.Members.get? values errorSetting with
  | some cause, _ => some cause
  | none, some value => if value.isVoid then none else some .absent
  | none, none => none

/-- A note with named values: its fields, and the extra values and the error among them. -/
def Note.withValues (note : Note) (values : Fields) : Except NoteError Note :=
  match fieldNamed? partNames values with
  | some name => .error (.takenName name)
  | none =>
      .ok { note with
        extra := membersOf (Json.Members.get? values "extra")
        cause := note.causeWith values
        fields := note.fields ++ values.filter fun value => !settingNames.contains value.1 }

/-- The values that the record of a note carries. -/
def Note.carried (note : Note) : Fields :=
  Journal.carried note.extra note.fields

/-- The record of a note, unless the note is refused; without a text where the template does not
fit its arguments.
-/
def Note.record? (note : Note) (clock : Clock) : Except NoteError (Option Record) :=
  match reservedField? note.carried with
  | some name => .error (.overwrites name)
  | none =>
      .ok <| (Template.fill? note.template note.arguments).map fun message =>
        ⟨loggerName note.logger, note.level, clock, message, note.carried, note.cause⟩

/-- A record is made of a note that carries no reserved name and has a text, by cases of the two. -/
theorem Note.record?_ok {note : Note} {clock : Clock} {record : Record}
    (made : note.record? clock = .ok (some record))
    : reservedField? note.carried = none
      ∧ ∃ message, Template.fill? note.template note.arguments = some message
        ∧ record
          = ⟨loggerName note.logger, note.level, clock, message, note.carried, note.cause⟩ := by
  unfold record? at made
  split at made
  next => cases made
  next free =>
    obtain ⟨message, filled, built⟩ := Option.map_eq_some_iff.mp (Except.ok.inj made)
    exact ⟨free, message, filled, built.symm⟩

end Wavetable.Journal
