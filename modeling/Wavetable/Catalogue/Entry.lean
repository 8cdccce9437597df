import Wavetable.Catalogue.Timestamp
import Wavetable.Catalogue.Uuid
import Wavetable.Formula.Compiled
import Wavetable.Text.Blank
import Wavetable.Text.Distinct
import Wavetable.Text.LowerCase

/-!
Entries of the catalogue: a formula with a name and a category. None of the three is empty or
has blanks around it.
-/

namespace Wavetable.Catalogue

structure Entry where
  id : Uuid
  expression : String
  name : String
  category : String
  isFavorite : Bool
  isUserCreated : Bool
  created : Timestamp
  modified : Timestamp
  deriving Repr, DecidableEq

/-- The three texts of an entry without the blanks around them. -/
structure Labels where
  expression : String
  name : String
  category : String
  deriving Repr, DecidableEq

/-- The names of those of three texts that are empty without the blanks around them. -/
def blankLabels (expression name category : String) : List String :=
  ((if Text.isBlankText category then ["category"] else [])
    ++ (if Text.isBlankText expression then ["expression"] else []))
    ++ (if Text.isBlankText name then ["name"] else [])

/-- Three texts as labels of an entry, or the names of those that are blank. -/
def Labels.ofTexts (expression name category : String) : Except (List String) Labels :=
  match blankLabels expression name category with
  | [] => .ok ⟨Text.trim expression, Text.trim name, Text.trim category⟩
  | blank => .error blank

/-- The mode of the formula of an entry, if it can be read. -/
def Entry.mode? (entry : Entry) : Option Formula.Mode :=
  match Formula.compile entry.expression with
  | .ok formula => some formula.mode
  | .error _ => none

/-- A text stands somewhere in another one. -/
def occursIn (part whole : List Char) : Bool :=
  match whole with
  | [] => part.isEmpty
  | c :: rest => part.isPrefixOf (c :: rest) || occursIn part rest

/-- The lower-case text of a query stands in one of the texts of the entry. -/
def Entry.holds (entry : Entry) (query : String) : Bool :=
  let found := fun (text : String) => occursIn query.toList (Text.lower text).toList
  found entry.name || found entry.expression || found entry.category

/-- A text without all occurrences of a part, taken from left to right. -/
def dropAll (part : List Char) : Nat → List Char → List Char
  | 0, cs => cs
  | _, [] => []
  | fuel + 1, c :: rest =>
      if !part.isEmpty && part.isPrefixOf (c :: rest) then
        dropAll part fuel ((c :: rest).drop part.length)
      else c :: dropAll part fuel rest

/-- A text without all occurrences of a part. -/
def without (part : List Char) (cs : List Char) : List Char :=
  dropAll part cs.length cs

/-- The mark of a category in a bundled file. -/
def categoryMark : List Char := ['[', 'x', ']']

/-- The dashes around the name of a category in a bundled file. -/
def categoryDashes : List Char := ['-', '-', '-']

/-- The name of a category without the marks of the bundled files. -/
def displayName (category : String) : String :=
  String.ofList
    (Text.trimChars (without categoryDashes (without categoryMark category.toList)))

end Wavetable.Catalogue
