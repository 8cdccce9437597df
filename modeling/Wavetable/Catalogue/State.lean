import Wavetable.Catalogue.Entry
import Wavetable.Catalogue.Version
import Wavetable.Json.Writer

/-!
The state of a user: own formulas and favorites, as a JSON text. Reading is lenient about how
numbers, truth values, identifiers and dates are written, strict about names, and reports the
places of all faults.
-/

namespace Wavetable.Catalogue

/-- An entry as a state gives it; the identifier and the dates may be missing. -/
structure StoredEntry where
  id : Option Uuid
  labels : Labels
  isFavorite : Bool
  isUserCreated : Bool
  created : Option Timestamp
  modified : Option Timestamp
  deriving Repr, DecidableEq

/-- The formulas of a user and the identifiers of the favorites. -/
structure State where
  entries : List StoredEntry
  favorites : List Uuid
  deriving Repr, DecidableEq

/-- The place of a fault: the names and indices that lead to it from the whole. -/
abbrev Place := List String

/-- A value, or the places of the faults for which there is none. -/
abbrev Checked (α : Type) := Except (List Place) α

/-- Faults inside a part, seen from the whole. -/
def Checked.within (part : String) : Checked α → Checked α
  | .ok value => .ok value
  | .error places => .error (places.map (part :: ·))

/-- A function and its argument, with the faults of both. -/
def Checked.apply (f : Checked (α → β)) (x : Checked α) : Checked β :=
  match f, x with
  | .ok f, .ok x => .ok (f x)
  | .ok _, .error places => .error places
  | .error places, .ok _ => .error places
  | .error places, .error others => .error (places ++ others)

/-- A fault of the value itself. -/
def fault : Checked α :=
  .error [[]]

/-- A member that is read if it is there. -/
def optionalMember (members : Json.Members) (name : String) (read : Json → Checked α)
    : Checked (Option α) :=
  match Json.Members.get? members name with
  | none => .ok none
  | some value => Checked.within name ((read value).map some)

/-- A member that has to be there. -/
def requiredMember (members : Json.Members) (name : String) (read : Json → Checked α)
    : Checked α :=
  match Json.Members.get? members name with
  | none => .error [[name]]
  | some value => Checked.within name (read value)

/-- Members may only have known names. -/
def knownMembers (known : List String) (members : Json.Members) : Checked Unit :=
  match (members.map (·.1)).filter fun name => !known.contains name with
  | [] => .ok ()
  | unknown => .error (unknown.map ([·]))

def readUuid : Json → Checked Uuid
  | .text s =>
      match Uuid.ofText? s with
      | some id => .ok id
      | none => fault
  | _ => fault

/-- A text that is not blank, without the blanks around it. -/
def readLabel : Json → Checked String
  | .text s => if Text.isBlankText s then fault else .ok (Text.trim s)
  | _ => fault

/-- The texts that say yes. -/
def yesWords : List String := ["1", "on", "t", "true", "y", "yes"]

/-- The texts that say no. -/
def noWords : List String := ["0", "off", "f", "false", "n", "no"]

/-- A truth value, one or zero, or a word for it. -/
def readTruth : Json → Checked Bool
  | .bool value => .ok value
  | .integer n => if n = 1 then .ok true else if n = 0 then .ok false else fault
  | .number x => if x == 1.0 then .ok true else if x == 0.0 then .ok false else fault
  | .text s =>
      let word := String.ofList (s.toList.map Char.toLower)
      if yesWords.contains word then .ok true
      else if noWords.contains word then .ok false
      else fault
  | _ => fault

/-- A point in time, as a text or a count of seconds. -/
def readTimestamp (value : Json) : Checked Timestamp :=
  let read : Option Timestamp :=
    match value with
    | .text s => Timestamp.ofText? s
    | .integer n => Timestamp.ofEpoch? n
    | .number x => Timestamp.ofEpochFloat? x
    | _ => none
  match read with
  | some t => .ok t
  | none => fault

/-- The version of a state: any whole number, however it is written. It is not kept. -/
def readVersion (value : Json) : Checked Unit :=
  if Version.isWhole value then .ok () else fault

def entryNames : List String :=
  ["id", "expression", "name", "category", "is_favorite", "is_user_created", "date_created",
   "date_modified"]

def readEntry : Json → Checked StoredEntry
  | .object members =>
      let build := fun id expression name category favorite userCreated created modified
          (_ : Unit) =>
        (⟨id, ⟨expression, name, category⟩, favorite.getD false, userCreated.getD false, created,
          modified⟩ : StoredEntry)
      let checked := Checked.apply (.ok build) (optionalMember members "id" readUuid)
      let checked := Checked.apply checked (requiredMember members "expression" readLabel)
      let checked := Checked.apply checked (requiredMember members "name" readLabel)
      let checked := Checked.apply checked (requiredMember members "category" readLabel)
      let checked := Checked.apply checked (optionalMember members "is_favorite" readTruth)
      let checked := Checked.apply checked (optionalMember members "is_user_created" readTruth)
      let checked := Checked.apply checked (optionalMember members "date_created" readTimestamp)
      let checked := Checked.apply checked (optionalMember members "date_modified" readTimestamp)
      Checked.apply checked (knownMembers entryNames members)
  | _ => fault

/-- The items of a list from an index on, with the faults of all. -/
def readItems (read : Json → Checked α) : Nat → List Json → Checked (List α)
  | _, [] => .ok []
  | index, item :: rest =>
      let first := Checked.within (toString index) (read item)
      Checked.apply (first.map List.cons) (readItems read (index + 1) rest)

def readList (read : Json → Checked α) : Json → Checked (List α)
  | .list items => readItems read 0 items
  | _ => fault

def stateNames : List String :=
  ["version", "user_formulas", "favorites"]

def State.ofJson : Json → Checked State
  | .object members =>
      let build := fun (_ : Option Unit) (entries : Option (List StoredEntry))
          (favorites : Option (List Uuid)) (_ : Unit) =>
        (⟨entries.getD [], favorites.getD []⟩ : State)
      let checked := Checked.apply (.ok build) (optionalMember members "version" readVersion)
      let checked :=
        Checked.apply checked (optionalMember members "user_formulas" (readList readEntry))
      let checked := Checked.apply checked (optionalMember members "favorites" (readList readUuid))
      Checked.apply checked (knownMembers stateNames members)
  | _ => fault

/-- A reader of states follows values to a depth of two hundred, refuses what is no text and
limits all numbers.
-/
def stateDialect : Json.Dialect :=
  ⟨some 200, false, true⟩

/-- The state that a text writes, or the places of its faults. -/
def State.ofText (text : String) : Checked State :=
  match Json.read? stateDialect text with
  | none => fault
  | some value => State.ofJson value

def Entry.toJson (entry : Entry) : Json :=
  .object
    [("id", .text entry.id.toText),
     ("expression", .text entry.expression),
     ("name", .text entry.name),
     ("category", .text entry.category),
     ("is_favorite", .bool entry.isFavorite),
     ("is_user_created", .bool entry.isUserCreated),
     ("date_created", .text entry.created.toText),
     ("date_modified", .text entry.modified.toText)]

/-- The text of the formulas of a user and of the favorites. -/
def stateText (entries : List Entry) (favorites : List Uuid) : String :=
  Json.indented <| .object
    [("version", .integer 1),
     ("user_formulas", .list (entries.map Entry.toJson)),
     ("favorites", .list (favorites.map fun id => .text id.toText))]

end Wavetable.Catalogue
