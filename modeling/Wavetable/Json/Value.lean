/-!
Structured data: the values of a JSON text. Whole numbers and doubles are kept apart, and the
members of an object keep their order.
-/

namespace Wavetable

inductive Json
  | null
  | bool (value : Bool)
  | integer (value : Int)
  | number (value : Float)
  | text (value : String)
  | list (items : List Json)
  | object (members : List (String × Json))
  deriving Inhabited, Repr

namespace Json

/-- Members by name, in the order in which their names were first given. -/
abbrev Members := List (String × Json)

def Members.get? : Members → String → Option Json
  | [], _ => none
  | (key, value) :: rest, name => if key = name then some value else Members.get? rest name

/-- Members with one more value: a known name keeps its place and takes the new value. -/
def Members.put : Members → String → Json → Members
  | [], name, value => [(name, value)]
  | (key, old) :: rest, name, value =>
      if key = name then (name, value) :: rest else (key, old) :: Members.put rest name value

/-- Members overlaid with others, which win. -/
def Members.overlay (members others : Members) : Members :=
  others.foldl (fun result member => Members.put result member.1 member.2) members

/-- The last value given to a name is the one that is found. -/
theorem Members.get?_put (members : Members) (name other : String) (value : Json)
    : Members.get? (Members.put members name value) other
        = if name = other then some value else Members.get? members other := by
  induction members with
  | nil => rfl
  | cons member rest ih =>
      obtain ⟨key, old⟩ := member
      by_cases hk : key = name
      · subst hk
        by_cases ho : key = other <;> simp [put, get?, ho]
      · by_cases ho : key = other
        · subst ho
          simp [put, get?, hk, Ne.symm hk]
        · simp [put, get?, hk, ho, ih]

/-- A value that stands for nothing: null, false, a zero, or one without characters, items or
members.
-/
def isVoid : Json → Bool
  | .null => true
  | .bool value => !value
  | .integer n => n == 0
  | .number x => x == 0.0
  | .text s => s.isEmpty
  | .list items => items.isEmpty
  | .object members => members.isEmpty

def get? (value : Json) (name : String) : Option Json :=
  match value with
  | .object members => Members.get? members name
  | _ => none

end Json

end Wavetable
