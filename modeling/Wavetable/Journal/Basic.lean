import Wavetable.Journal.Handler
import Wavetable.Journal.Note
import Wavetable.Text.LowerCase

/-!
The journal of a session: its threshold, the handlers that write its records, the bound context
and the warnings already given. It writes nothing until a handler is installed.
-/

namespace Wavetable

open Journal

/-- The state of a journal. The outer contexts are those of the blocks around the present one. -/
structure Journal where
  threshold : Level := Level.warning
  handlers : List Handler := []
  context : Fields := []
  outer : List Fields := []
  warned : List String := []

namespace Journal

/-- The threshold in force; a journal without one has that for warnings. -/
def lowest (journal : Journal) : Level :=
  if journal.threshold = 0 then Level.warning else journal.threshold

/-- The threshold in force for a logger; one that is not below the root has that for warnings. -/
def lowestFor (journal : Journal) (logger : Option String) : Level :=
  if isBelowRoot logger then journal.lowest else Level.warning

/-- A logger makes records of the level. -/
def admits (journal : Journal) (logger : Option String) (level : Level) : Bool :=
  0 < level && journal.lowestFor logger ≤ level

/-- The handlers of a logger: those of the journal, unless it is not below the root. -/
def handlersFor (journal : Journal) (logger : Option String) : List Handler :=
  if isBelowRoot logger then journal.handlers else [.lastResort]

/-- The lines that handlers write for a record of a logger. -/
def written (journal : Journal) (logger : Option String) (record : Record) : List Line :=
  ((journal.handlersFor logger).filter (·.accepts record.level)).map
    (·.line journal.context record)

/-- The lines for a note. One below the threshold has none. -/
def emit (journal : Journal) (clock : Clock) (note : Note) : Except NoteError (List Line) :=
  if journal.admits note.logger note.level then
    match note.record? clock with
    | .error error => .error error
    | .ok none => .ok []
    | .ok (some record) => .ok (journal.written note.logger record)
  else .ok []

/-- The lines for a note with named values. -/
def emitWith (journal : Journal) (clock : Clock) (note : Note) (values : Fields)
    : Except NoteError (List Line) :=
  match note.withValues values with
  | .error error => .error error
  | .ok note => journal.emit clock note

/-- The journal that knows that a warning was given. -/
def remember (journal : Journal) (code : String) : Journal :=
  { journal with warned := code :: journal.warned }

/-- The names that the parts of a warning have. -/
def warningNames : List String :=
  ["logger", "code", "msg"]

/-- The lines for a warning, which is given once for each code; it counts as given even where
nothing is written. The code is its first field.
-/
def warnOnce (journal : Journal) (clock : Clock) (logger : Option String) (code : String)
    (level : Level) (template : String) (values : Fields)
    : Except NoteError (List Line) × Journal :=
  match fieldNamed? warningNames values with
  | some name => (.error (.takenName name), journal)
  | none =>
      if journal.warned.contains code then (.ok [], journal)
      else
        let note : Note :=
          { logger := logger, level := level, template := template,
            fields := [("code", .text code)] }
        (journal.emitWith clock note values, journal.remember code)

/-- The journal with more fields bound until the innermost block ends. -/
def bind (journal : Journal) (fields : Fields) : Journal :=
  { journal with context := Fields.bind journal.context fields }

/-- The journal inside a block with fields of its own. -/
def enter (journal : Journal) (fields : Fields) : Journal :=
  { journal with
    context := Fields.bind journal.context fields, outer := journal.context :: journal.outer }

/-- The journal after the innermost block, with the context in which that was entered. -/
def leave (journal : Journal) : Journal :=
  match journal.outer with
  | [] => journal
  | context :: outer => { journal with context := context, outer := outer }

/-- The journal with another threshold. -/
def setLevel (journal : Journal) (choice : Level.Choice) : Except Level.ChoiceError Journal := do
  let level ← choice.level
  pure { journal with threshold := level }

/-- The journal without handlers. -/
def disable (journal : Journal) : Journal :=
  { journal with handlers := [] }

/-- The journal with fresh handlers. The threshold is lowered to their level, never raised. -/
def enable (journal : Journal) (options : Options) : Except Level.ChoiceError Journal := do
  let level ← options.level.level
  let threshold := if journal.threshold = 0 then level else min journal.threshold level
  pure { journal with threshold := threshold, handlers := options.handlers level }

/-- Variables of an environment. -/
abbrev Environment := List (String × String)

/-- A variable is set to one of the words for yes. -/
def isSwitchedOn (environment : Environment) (name : String) : Bool :=
  ["1", "true", "yes", "on"].contains
    (Text.lower (Text.trim ((environment.lookup name).getD "")))

/-- The level that an environment names. -/
def environmentLevel (environment : Environment) : Level.Choice :=
  .name ((environment.lookup "WAVEXPR_LOG_LEVEL").getD "WARNING")

/-- The options that an environment sets. -/
def environmentOptions (environment : Environment) : Options :=
  let brief := isSwitchedOn environment "WAVEXPR_LOG_PRETTY"
  { level := environmentLevel environment, asObjects := !brief
    showsTrace := isSwitchedOn environment "WAVEXPR_LOG_STACK", brief := brief }

/-- The journal as an environment asks for it. -/
def configure (journal : Journal) (environment : Environment)
    : Except Level.ChoiceError Journal := do
  let journal ← journal.setLevel (environmentLevel environment)
  if isSwitchedOn environment "WAVEXPR_LOG_STDOUT" then
    journal.enable (environmentOptions environment)
  else pure journal.disable

end Journal

end Wavetable
