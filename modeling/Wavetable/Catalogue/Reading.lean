import Wavetable.Catalogue.Bundle

/-!
Bundled texts read line by line. A reader keeps the category in force, the entries so far and a
table of how many formulas it has met, which goes by the identifiers of first formulas. An entry
with a blank text would stop it.
-/

namespace Wavetable.Catalogue

/-- What a reader has come to: the category in force, how many formulas it has met by the identifier
of the first one, the newest count in front, and the entries in their order.
-/
structure Reading where
  category : String
  met : List (Uuid × Nat)
  entries : List Entry
  deriving Repr, DecidableEq

def Reading.start (isMultiFrame : Bool) : Reading :=
  ⟨defaultCategory isMultiFrame, [], []⟩

/-- How many formulas the reader has met with the identifier of the first one. -/
def Reading.count (reading : Reading) (first : Uuid) : Nat :=
  (reading.met.lookup first).getD 0

/-- The entry of a bundled formula whose labels are accepted. -/
def Labels.bundled (labels : Labels) (id : Uuid) (now : Timestamp) : Entry where
  id := id
  expression := labels.expression
  name := labels.name
  category := labels.category
  isFavorite := false
  isUserCreated := false
  created := now
  modified := now

/-- A formula is met: the first one of its contents has the identifier with number zero. -/
def Reading.formula (now : Timestamp) (isMultiFrame : Bool) (reading : Reading)
    (expression name : String) : Except (List String) Reading := do
  let key : BundleKey := ⟨isMultiFrame, reading.category, expression, name⟩
  let first := key.id 0
  let ordinal := reading.count first
  let id := if ordinal = 0 then first else key.id ordinal
  let labels ← Labels.ofTexts expression name reading.category
  pure
    { reading with
      met := (first, ordinal + 1) :: reading.met
      entries := reading.entries ++ [labels.bundled id now] }

/-- The next line is read. -/
def Reading.line (now : Timestamp) (isMultiFrame : Bool) (reading : Reading)
    : BundleLine → Except (List String) Reading
  | .header name =>
      pure { reading with category := if name.isEmpty then reading.category else name }
  | .formula expression name => reading.formula now isMultiFrame expression name
  | _ => pure reading

/-- Lines are read one after the other. -/
def Reading.lines (now : Timestamp) (isMultiFrame : Bool) (reading : Reading)
    : List BundleLine → Except (List String) Reading
  | [] => pure reading
  | line :: rest => do
      let next ← reading.line now isMultiFrame line
      next.lines now isMultiFrame rest

/-- The entries of a bundled text that is read line by line, or the labels that stopped it. -/
def readText (now : Timestamp) (isMultiFrame : Bool) (text : String)
    : Except (List String) (List Entry) := do
  let reading ← (Reading.start isMultiFrame).lines now isMultiFrame (bundleLines text)
  pure reading.entries

end Wavetable.Catalogue
