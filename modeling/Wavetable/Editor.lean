import Wavetable.Grid.Apply
import Wavetable.Text.Blank

/-!
An editor for one formula. It keeps the last formula that could be read while the text is being
changed, and the last error for display.
-/

namespace Wavetable

open Formula

/-- What the editor shows: the text, the mode of that text if it can be read, the last formula
that could be read, and the last error.
-/
structure Editor where
  settings : Settings
  text : String
  mode : Option Mode
  compiled : Option Compiled
  lastError : Option String

namespace Editor

/-- An editor without a text. -/
def empty (settings : Settings) : Editor :=
  ⟨settings, "", none, none, none⟩

/-- The text could be read. -/
def isValid (editor : Editor) : Bool :=
  editor.mode.isSome

/-- The error that is shown for a text that cannot be read. -/
def parseErrorText (error : SyntaxError) : String :=
  "Parse error: " ++ error.message

/-- The editor with another text, without the blanks around it. A formula that was read before is
kept where the new text is none.
-/
def update (editor : Editor) (text : String) : Editor :=
  let text := Text.trim text
  let editor := { editor with text := text, mode := none, lastError := none }
  if text.isEmpty then editor
  else
    match compile text with
    | .error error => { editor with lastError := some (parseErrorText error) }
    | .ok formula => { editor with compiled := some formula, mode := some formula.mode }

def start (settings : Settings) (text : String) : Editor :=
  if text.isEmpty then empty settings else (empty settings).update text

/-- Why the formula of an editor is not applied. -/
inductive ApplyError
  | emptyText
  | syntaxFault (error : SyntaxError)
  | grid (error : Grid.ApplyError)
  deriving Repr, DecidableEq

def ApplyError.message : ApplyError → String
  | .emptyText => "Expression is empty"
  | .syntaxFault error => error.message
  | .grid error => error.message

/-- A failure that belongs to the formula and the grid, not to the caller. -/
def isEvaluationFailure : Grid.ApplyError → Bool
  | .cancelled _ _ => false
  | .negativeSize => false
  | .fractionalFrames => false
  | .evaluation .parameterTooLarge => false
  | .evaluation .argumentMissing => false
  | _ => true

/-- The error that is shown for a formula that was not applied. -/
def applyErrorText (error : Grid.ApplyError) : Option String :=
  if isEvaluationFailure error then some ("Evaluation error: " ++ error.message) else none

/-- The result of applying the formula of an editor. -/
structure Applied where
  editor : Editor
  result : Except ApplyError (Option Grid)
  grid : Grid
  polls : Nat

/-- The formula of the text applied to a grid. -/
def apply (editor : Editor) (check : Grid.CancelCheck) (grid : Grid) (selected count : Int)
    : Applied :=
  let editor := { editor with lastError := none }
  if editor.text.isEmpty then
    ⟨{ editor with lastError := some ApplyError.emptyText.message }, .error .emptyText, grid, 0⟩
  else
    match compile editor.text with
    | .error error =>
        ⟨{ editor with lastError := some (parseErrorText error) }, .error (.syntaxFault error),
          grid, 0⟩
    | .ok formula =>
        let editor := { editor with compiled := some formula, mode := some formula.mode }
        let settings := editor.settings
        let report := Grid.apply (.ofSettings settings) settings.frameCount formula check
          grid selected count
        match report.result with
        | .ok written => ⟨editor, .ok written, report.grid, report.polls⟩
        | .error error =>
            ⟨{ editor with lastError := applyErrorText error }, .error (.grid error), report.grid,
              report.polls⟩

end Editor

end Wavetable
