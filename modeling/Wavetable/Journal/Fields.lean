import Wavetable.Json.Value

/-!
Fields of records. Bound fields overlay the ones bound before, and the fields of one record
move aside where their name is one that every record has of its own.
-/

namespace Wavetable.Journal

/-- Named values, in the order in which their names were first given. -/
abbrev Fields := Json.Members

def isGiven : Json → Bool
  | .null => false
  | _ => true

/-- The fields of a context after more are bound; a null binds nothing. -/
def Fields.bind (context fields : Fields) : Fields :=
  Json.Members.overlay context (fields.filter fun field => isGiven field.2)

/-- The attributes that a record is made with. -/
def ownAttributes : List String :=
  ["name", "msg", "args", "levelname", "levelno", "pathname", "filename", "module", "exc_info",
   "exc_text", "stack_info", "lineno", "funcName", "created", "msecs", "relativeCreated",
   "thread", "threadName", "processName", "process"]

/-- The names that fields cannot have: the attributes of a record, and the two that are set when
it is written.
-/
def reservedNames : List String :=
  ownAttributes ++ ["message", "asctime"]

/-- The name under which a field is kept. -/
def fieldSlot (name : String) : String :=
  if reservedNames.contains name then "field_" ++ name else name

/-- Fields with one more, unless there is one of that name. -/
def Fields.putNew (fields : Fields) (name : String) (value : Json) : Fields :=
  if (Json.Members.get? fields name).isSome then fields else fields ++ [(name, value)]

/-- What a record carries: extra values as they are, then its fields under free names. -/
def carried (extra fields : Fields) : Fields :=
  fields.foldl (fun result field => Fields.putNew result (fieldSlot field.1) field.2) extra

/-- The first of the names that is reserved. -/
def reservedField? (fields : Fields) : Option String :=
  (fields.map Prod.fst).find? reservedNames.contains

end Wavetable.Journal
