import Wavetable.Text.Blank
import Wavetable.Text.Quoted

/-!
Severities of records. They are numbers, the larger the graver; six of them have names, which
are read in any case and with blanks around.
-/

namespace Wavetable.Journal

abbrev Level := Int

namespace Level

/-- The level of what only those look for who hunt a fault. -/
def debug : Level := 10

/-- The level of what went as it should. -/
def info : Level := 20

/-- The level of what may be wrong. -/
def warning : Level := 30

/-- The level of what failed. -/
def error : Level := 40

/-- The level of what ends the work. -/
def critical : Level := 50

/-- The names that are written. -/
def labels : List (Level × String) :=
  [(critical, "CRITICAL"), (error, "ERROR"), (warning, "WARNING"), (info, "INFO"),
   (debug, "DEBUG"), (0, "NOTSET")]

/-- The names that are read: two of the levels have a second one. -/
def names : List (String × Level) :=
  labels.map (fun (level, name) => (name, level)) ++ [("WARN", warning), ("FATAL", critical)]

def text (level : Level) : String :=
  (labels.lookup level).getD ("Level " ++ toString level)

/-- The upper case of a letter, for the letters whose upper case is an ASCII one. -/
def upperChar (c : Char) : Char :=
  if c = 'ı' then 'I' else if c = 'ſ' then 'S' else c.toUpper

def ofName? (name : String) : Option Level :=
  names.lookup (String.ofList ((Text.trimChars name.toList).map upperChar))

/-- A level as a caller gives it. -/
inductive Choice
  | number (level : Level)
  | name (text : String)
  | other
  deriving Repr, DecidableEq

inductive ChoiceError
  | unknownName (text : String)
  | notALevel
  deriving Repr, DecidableEq

def ChoiceError.message : ChoiceError → String
  | .unknownName text => "Invalid level name: " ++ Text.quote text
  | .notALevel => "a level is a number or a name"

def Choice.level : Choice → Except ChoiceError Level
  | .number level => .ok level
  | .name text =>
      match ofName? text with
      | some level => .ok level
      | none => .error (.unknownName text)
  | .other => .error .notALevel

end Level

end Wavetable.Journal
