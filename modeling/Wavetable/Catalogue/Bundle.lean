import Wavetable.Catalogue.Entry
import Wavetable.Digest.Stable
import Wavetable.Text.Lines

/-!
Bundled formulas: texts with one formula or category a line. The identifier of a bundled formula
is a digest of its contents and of how many like it stand before it, so it stays the same when
other lines change.
-/

namespace Wavetable.Catalogue

/-- A closing bracket is followed by an opening one somewhere in a text. -/
def hasTouchingBrackets : List Char → Bool
  | ']' :: '[' :: _ => true
  | _ :: rest => hasTouchingBrackets rest
  | [] => false

/-- The text in the next pair of brackets behind the given point, and what follows it. -/
def nextBracketed? (cs : List Char) : Option (List Char × List Char) :=
  match cs.dropWhile (· ≠ '[') with
  | [] => none
  | _ :: inside =>
      match inside.dropWhile (· ≠ ']') with
      | [] => none
      | _ :: behind => some (inside.takeWhile (· ≠ ']'), behind)

/-- The expression and the name of a line of a formula. -/
def lineParts? (line : List Char) : Option (List Char × List Char) :=
  match line with
  | '[' :: rest =>
      if hasTouchingBrackets rest then do
        let (expression, behind) ← nextBracketed? line
        let (name, _) ← nextBracketed? behind
        pure (expression, name)
      else none
  | _ => none

/-- The expression and the name of a line, as texts. -/
def formulaLine (line : String) : Option (String × String) :=
  (lineParts? line.toList).map fun (expression, name) =>
    (String.ofList expression, String.ofList name)

/-- What the line of a category starts with. -/
def headerMark : List Char := ['[', 'x', ']', '[']

/-- The name on the line of a category, which may be empty. -/
def header? (line : List Char) : Option (List Char) :=
  if headerMark.isPrefixOf line && line.getLast? = some ']' then
    some (Text.trimChars ((without headerMark line).filter (· ≠ ']')))
  else none

/-- The contents from which the identifier of a bundled formula is made. -/
structure BundleKey where
  isMultiFrame : Bool
  category : String
  expression : String
  name : String
  deriving Repr, DecidableEq

/-- A key and an ordinal as data. -/
def BundleKey.payload (key : BundleKey) (ordinal : Int) : Json :=
  .object
    [("multi", .bool key.isMultiFrame), ("category", .text key.category),
     ("expression", .text key.expression), ("name", .text key.name), ("ordinal", .integer ordinal)]

/-- The identifier of a bundled formula with so many like it before it. -/
def BundleKey.id (key : BundleKey) (ordinal : Int) : Uuid :=
  .ofBytes (Digest.stableBytes 16 (key.payload ordinal))

/-- The category of formulas before the first line of a category. -/
def defaultCategory (isMultiFrame : Bool) : String :=
  if isMultiFrame then "Multi-Frame" else "Single-Frame"

/-- What a line of a bundled file is. -/
inductive BundleLine
  | blank
  | header (category : String)
  | formula (expression name : String)
  | incomplete
  | other
  deriving Repr, DecidableEq

/-- The line that a text is, without the blanks around it. -/
def BundleLine.ofText (text : String) : BundleLine :=
  let line := Text.trimChars text.toList
  if line.isEmpty then .blank
  else
    match header? line with
    | some category => .header (String.ofList category)
    | none =>
        match lineParts? line with
        | none => .other
        | some (expression, name) =>
            let expression := Text.trimChars expression
            let name := Text.trimChars name
            if expression.isEmpty || name.isEmpty then .incomplete
            else .formula (String.ofList expression) (String.ofList name)

/-- The lines of a bundled file. -/
def bundleLines (text : String) : List BundleLine :=
  (Text.lines text).map .ofText

/-- The formulas of lines, each with the category in force. A category without a name changes
nothing.
-/
def keysOf (isMultiFrame : Bool) (category : String) : List BundleLine → List BundleKey
  | [] => []
  | .header name :: rest =>
      keysOf isMultiFrame (if name.isEmpty then category else name) rest
  | .formula expression name :: rest =>
      ⟨isMultiFrame, category, expression, name⟩ :: keysOf isMultiFrame category rest
  | _ :: rest => keysOf isMultiFrame category rest

/-- Keys, each with the number of equal ones before it; the first list holds those before. -/
def ordinals (before : List BundleKey) : List BundleKey → List (BundleKey × Nat)
  | [] => []
  | key :: rest => (key, before.count key) :: ordinals (key :: before) rest

/-- The entry of a bundled formula, as it is when it is read. -/
def BundleKey.entry (now : Timestamp) (key : BundleKey) (ordinal : Nat) : Entry where
  id := key.id ordinal
  expression := key.expression
  name := key.name
  category := key.category
  isFavorite := false
  isUserCreated := false
  created := now
  modified := now

/-- The entries of a bundled file. -/
def bundle (now : Timestamp) (isMultiFrame : Bool) (text : String) : List Entry :=
  let keys := keysOf isMultiFrame (defaultCategory isMultiFrame) (bundleLines text)
  (ordinals [] keys).map fun (key, ordinal) => key.entry now ordinal

/-- The numbers of the lines that have brackets for a formula but nothing in one of them. -/
def incompleteLines (text : String) : List Nat :=
  ((bundleLines text).zipIdx 1).filterMap fun (line, number) =>
    if line = .incomplete then some number else none

end Wavetable.Catalogue
