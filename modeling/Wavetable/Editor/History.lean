import Wavetable.Editor

/-!
What an editor goes through: texts that are typed into it, and grids that its formula is applied to.
-/

namespace Wavetable.Editor

/-- What the user of an editor does. -/
inductive Step
  | update (text : String)
  | apply (check : Grid.CancelCheck) (grid : Grid) (selected count : Int)

/-- The text that a step types, if it types one. -/
def Step.text? : Step → Option String
  | .update text => some text
  | .apply _ _ _ _ => none

def Step.perform (editor : Editor) : Step → Editor
  | .update text => editor.update text
  | .apply check grid selected count => (editor.apply check grid selected count).editor

/-- A step fails if the text that it types cannot be read, or if the formula is not applied. -/
def Step.Fails (editor : Editor) : Step → Prop
  | .update text => ∃ error, Formula.compile (Text.trim text) = .error error
  | .apply check grid selected count =>
      ∃ error, (editor.apply check grid selected count).result = .error error

/-- The editor after steps, one after the other. -/
def after (editor : Editor) (steps : List Step) : Editor :=
  steps.foldl Step.perform editor

end Wavetable.Editor
