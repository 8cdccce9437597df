import Wavetable.Json.Reader
import Wavetable.Settings.Basic
import Wavetable.Text.File

/-!
Settings loaded in layers. The values of a file are overlaid by those of the environment, and
these by the caller's. A file that cannot be read counts as empty, unless it is nested too deep.
-/

namespace Wavetable.Settings

/-- Named values, and whether a value was also given under something that is no name. -/
structure Layer where
  members : Json.Members
  hasForeignName : Bool

def Layer.empty : Layer :=
  ⟨[], false⟩

/-- A layer with one more value. -/
def Layer.put (layer : Layer) (name value : Json) : Except Error Layer :=
  match name with
  | .text name => .ok { layer with members := Json.Members.put layer.members name value }
  | .list _ => .error .unusableContent
  | .object _ => .error .unusableContent
  | _ => .ok { layer with hasForeignName := true }

/-- The name and the value that an item of a list gives: its two items, its two characters, or its
two names.
-/
def pairOf (index : Nat) (item : Json) : Except Error (Json × Json) :=
  let parts : Option (List Json) :=
    match item with
    | .list items => some items
    | .text s => some (s.toList.map fun c => .text (String.singleton c))
    | .object members => some (members.map fun member => .text member.1)
    | _ => none
  match parts with
  | none => .error .unusableContent
  | some [name, value] => .ok (name, value)
  | some parts => .error (.pairLength index parts.length)

/-- The values that the items of a list give, each under its name. -/
def layerOfItems (layer : Layer) : Nat → List Json → Except Error Layer
  | _, [] => .ok layer
  | index, item :: rest => do
      let (name, value) ← pairOf index item
      let layer ← layer.put name value
      layerOfItems layer (index + 1) rest

/-- The values that the content of a file gives: those of an object, or of a list of pairs. -/
def layerOfJson : Json → Except Error Layer
  | .object members => .ok ⟨members, false⟩
  | .list items => layerOfItems .empty 0 items
  | .text s => layerOfItems .empty 0 (s.toList.map fun c => .text (String.singleton c))
  | _ => .error .unusableContent

/-- A reader of settings follows values to a depth of 989 and keeps halves of surrogate pairs. -/
def dialect : Json.Dialect :=
  ⟨some 989, true, false⟩

/-- The value that a file holds; an unreadable one counts as an object without members. -/
def fileValue : Text.File → Except Error Json
  | .text content =>
      match Json.read dialect content with
      | .ok value => .ok value
      | .error .malformed => .ok (.object [])
      | .error (.tooDeep inList) => .error (.nestedTooDeep inList)
  | _ => .ok (.object [])

/-- Variables of the environment by name. -/
abbrev Environment := List (String × String)

/-- A variable that is set and not empty. -/
def Environment.get? (environment : Environment) (name : String) : Option String :=
  match environment.lookup name with
  | some value => if value.isEmpty then none else some value
  | none => none

/-- The values of the environment: a seed and two paths. -/
def environmentMembers (environment : Environment) : Except Error Json.Members := do
  let seed ←
    match Environment.get? environment "WAVEXPR_RAND_SEED" with
    | some text => do
        let seed ← seedOfText text
        pure [("rand_seed", Json.integer seed)]
    | none => pure []
  let path := fun (variableName name : String) =>
    match Environment.get? environment variableName with
    | some text => [(name, Json.text text)]
    | none => []
  pure (seed ++ path "WAVEXPR_LIBRARY_PATH" "library_path"
    ++ path "WAVEXPR_USER_FORMULAS" "user_formulas_path")

/-- The settings of a file, overlaid by the environment and by the caller's values. -/
def load (file : Text.File) (environment : Environment) (overrides : Json.Members)
    : Except Error Settings := do
  let content ← fileValue file
  let layer ← layerOfJson content
  let fromEnvironment ← environmentMembers environment
  let members := Json.Members.overlay (Json.Members.overlay layer.members fromEnvironment) overrides
  if layer.hasForeignName then throw .unusableContent
  ofMembers members

end Wavetable.Settings
