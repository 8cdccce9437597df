import Wavetable.Catalogue.Store

/-!
Questions to the catalogue. Entries are listed by mode, the bundled ones first; those of the user
count where their formula can be read and is of that mode.
-/

namespace Wavetable.Catalogue

/-- A category, with the mode under which it is listed. -/
structure Category where
  name : String
  isMultiFrame : Bool
  deriving Repr, DecidableEq

namespace Store

/-- The categories of all entries by name. One is listed for whole tables exactly if a bundled
entry for whole tables is in it.
-/
def categories (store : Store) : List Category :=
  let multi := store.multis.map (·.category)
  (Text.distinct (store.every.map (·.category))).map fun name => ⟨name, multi.contains name⟩

def bundledOf (store : Store) (isMultiFrame : Bool) : List Entry :=
  if isMultiFrame then store.multis else store.singles

def all (store : Store) (isMultiFrame : Bool) : List Entry :=
  store.bundledOf isMultiFrame
    ++ store.user.filter fun entry => entry.mode? = some (.ofFlag isMultiFrame)

def inCategory (store : Store) (category : String) (isMultiFrame : Bool) : List Entry :=
  (store.all isMultiFrame).filter (·.category = category)

def favorites (store : Store) (isMultiFrame : Bool) : List Entry :=
  (store.all isMultiFrame).filter (·.isFavorite)

/-- The entries of a mode in whose texts a query stands, however it is capitalised. -/
def search (store : Store) (query : String) (isMultiFrame : Bool) : List Entry :=
  (store.all isMultiFrame).filter (·.holds (Text.lower query))

end Store

end Wavetable.Catalogue
