import Wavetable.Catalogue.Bundle
import Wavetable.Editor
import Wavetable.Journal.Activity

/-!
What the work on formulas notes: reading a formula, the passes over a grid, the editor's
attempts to apply its text, and the lines of a bundled file that are left out. A pass is noted
in a context that says what it is about.
-/

namespace Wavetable.Journal

open Formula

/-- A note of an event for those who look for faults. -/
def eventNote (logger event : String) (fields : Fields) : Note where
  logger := some logger
  level := Level.debug
  template := event
  fields := ("event", .text event) :: fields

/-- The note of a formula that was read, or could not be. -/
def compileNote (source : String) : Note :=
  let logger := "engine.compiler"
  match compile source with
  | .ok formula =>
      eventNote logger "expr.compiled"
        [("expr", .text source), ("mode", .text formula.mode.label)]
  | .error error =>
      eventNote logger "expr.compile.failed"
        [("expr", .text source), ("error", .text error.message),
         ("position", .integer error.position)]

/-- Reading a formula. -/
def compiling {ε : Type} (raise : SyntaxError → ε) (source : String) : Activity ε :=
  .andThen (.note (compileNote source)) <|
    match compile source with
    | .ok _ => .idle
    | .error error => .raise (raise error)

/-- A note of a pass over a grid. -/
def passNote (event : String) (fields : Fields) : Note :=
  eventNote "engine.applicator" event fields

/-- A seed as it is noted. -/
def seedField : Option Int → Json
  | some seed => .integer seed
  | none => .null

/-- What a pass is about. -/
def passContext (formula : Compiled) (mode : Mode) (frames : Nat) (samples : Int) : Fields :=
  [("expr", .text formula.source), ("mode", .text mode.label), ("frames", .integer frames),
   ("samples", .integer samples)]

/-- The end of a pass. The time that it took counts as none. -/
def passEnd {ε : Type} (raise : Grid.ApplyError → ε) : Except Grid.ApplyError Grid → Activity ε
  | .ok _ => .note (passNote "expr.apply.done" [("elapsed_ms", .integer 0)])
  | .error (.cancelled done total) =>
      .andThen (.note (passNote "expr.apply.cancelled" [("frames_done", .integer done)]))
        (.raise (raise (.cancelled done total)))
  | .error error => .raise (raise error)

/-- A pass that has begun, in the context that says what it is about. -/
def passBody {ε : Type} (raise : Grid.ApplyError → ε) (context : Fields) (selected : Int)
    (seed : Option Int) (result : Except Grid.ApplyError Grid) : Activity ε :=
  .within context
    (.andThen
      (.note (passNote "expr.apply.start"
        [("selected", .integer selected), ("seed", seedField seed)]))
      (passEnd raise result))

/-- The pass that replaces the selected frame. -/
def singlePass {ε : Type} (raise : Grid.ApplyError → ε) (pass : Grid.Pass) (formula : Compiled)
    (grid : Grid) (selected count : Int) (seed : Option Int) : Activity ε :=
  match Grid.checkFrame grid selected count with
  | .error error => .raise (raise error)
  | .ok _ =>
      passBody raise (passContext formula .singleFrame grid.frameCount count) selected seed
        (Grid.applySingle pass formula.tree grid selected count)

/-- The pass that replaces all frames. -/
def multiPass {ε : Type} (raise : Grid.ApplyError → ε) (pass : Grid.Pass) (formula : Compiled)
    (check : Grid.CancelCheck) (grid : Grid) (selected count : Int) (seed : Option Int)
    : Activity ε :=
  match Grid.checkFrames grid selected count with
  | .error error => .raise (raise error)
  | .ok _ =>
      passBody raise (passContext formula .multiFrame grid.frameCount count) selected seed
        (Grid.applyMulti pass formula.tree check grid selected count).1

/-- The pass of a formula with frame variables, over a new grid where the given one is too small. -/
def tablePass {ε : Type} (raise : Grid.ApplyError → ε) (pass : Grid.Pass)
    (frameCount : Settings.Numeric) (formula : Compiled) (check : Grid.CancelCheck) (grid : Grid)
    (selected count : Int) (seed : Option Int) : Activity ε :=
  if Grid.needsExpansion grid then
    match Grid.expand grid count frameCount with
    | .error error => .raise (raise error)
    | .ok table =>
        .andThen (.note (passNote "expr.apply.expanded" [("frames", .integer table.frameCount)]))
          (multiPass raise pass formula check table (Grid.nearestIndex table selected) count seed)
  else multiPass raise pass formula check grid (Grid.nearestIndex grid selected) count seed

/-- The pass that the mode of a formula calls for. -/
def applying {ε : Type} (raise : Grid.ApplyError → ε) (pass : Grid.Pass)
    (frameCount : Settings.Numeric) (formula : Compiled) (check : Grid.CancelCheck) (grid : Grid)
    (selected count : Int) (seed : Option Int) : Activity ε :=
  match formula.mode with
  | .singleFrame => singlePass raise pass formula grid selected count seed
  | .multiFrame => tablePass raise pass frameCount formula check grid selected count seed

/-- A pass of an editor that fails is noted once more, with the text, if the failure belongs to the
formula and the grid.
-/
def notingFailure (text : String) (failure : Failure Editor.ApplyError)
    : Activity Editor.ApplyError :=
  match failure with
  | .raised (.grid fault) =>
      if Editor.isEvaluationFailure fault then
        .andThen
          (.note (eventNote "engine.live" "expr.live.apply.failed"
            [("expr", .text text), ("error", .text fault.message)]))
          (.fail failure)
      else .fail failure
  | _ => .fail failure

/-- An editor is given a text. -/
def updating {ε : Type} (text : String) : Activity ε :=
  let text := Text.trim text
  if text.isEmpty then .idle else .note (compileNote text)

/-- The text of an editor is applied to a grid. -/
def editorApplying (editor : Editor) (check : Grid.CancelCheck) (grid : Grid)
    (selected count : Int) (seed : Option Int) : Activity Editor.ApplyError :=
  if editor.text.isEmpty then .raise .emptyText
  else
    .andThen (compiling .syntaxFault editor.text) <|
      match compile editor.text with
      | .error _ => .idle
      | .ok formula =>
          let settings := editor.settings
          .rescue
            (applying .grid (.ofSettings settings) settings.frameCount formula check grid
              selected count seed)
            (notingFailure editor.text)

/-- A bundled file is read. -/
def readingBundle {ε : Type} (text : String) : Activity ε :=
  .sequence ((Catalogue.incompleteLines text).map fun (number : Nat) =>
    .note (eventNote "library.formats" "library.entry.skipped" [("line", .integer number)]))

end Wavetable.Journal
