import Wavetable.Json.Value
import Wavetable.Number.Layout

/-!
JSON texts. The compact form has no blanks, the canonical one orders the members of every
object by name, and the indented one puts every item on a line of its own. Characters beyond
ASCII stand for themselves in all three.
-/

namespace Wavetable.Json

open Wavetable.Number

/-- A character inside a string: the two marks and the controls are escaped. -/
def escapeChar (c : Char) : List Char :=
  if c = '"' then ['\\', '"']
  else if c = '\\' then ['\\', '\\']
  else if c = '\n' then ['\\', 'n']
  else if c = '\r' then ['\\', 'r']
  else if c = '\t' then ['\\', 't']
  else if c = '\x08' then ['\\', 'b']
  else if c = '\x0c' then ['\\', 'f']
  else if c.toNat < 0x20 then
    ['\\', 'u', '0', '0', Nat.digitChar (c.toNat / 16), Nat.digitChar (c.toNat % 16)]
  else [c]

/-- A string between its marks. -/
def stringChars (s : String) : List Char :=
  '"' :: (s.toList.flatMap escapeChar ++ ['"'])

def integerChars (n : Int) : List Char :=
  signChars (n < 0) ++ digitChars n.natAbs

/-- A double, with the names that data readers know for the ones that are no number. -/
def numberChars (x : Float) : List Char :=
  (withNames ['N', 'a', 'N'] ['I', 'n', 'f', 'i', 'n', 'i', 't', 'y'] x dataChars).toList

/-- Pieces with a separator between them. -/
def separated (separator : List Char) : List (List Char) → List Char
  | [] => []
  | [piece] => piece
  | piece :: rest => piece ++ separator ++ separated separator rest

/-- The compact text of a value that is neither a list nor an object. -/
def scalarChars : Json → List Char
  | .null => ['n', 'u', 'l', 'l']
  | .bool true => ['t', 'r', 'u', 'e']
  | .bool false => ['f', 'a', 'l', 's', 'e']
  | .integer n => integerChars n
  | .number x => numberChars x
  | .text s => stringChars s
  | .list _ => []
  | .object _ => []

mutual

def compactChars : Json → List Char
  | .list items => '[' :: (separated [','] (compactItems items) ++ [']'])
  | .object members => '\x7b' :: (separated [','] (compactMembers members) ++ ['\x7d'])
  | .null => scalarChars .null
  | .bool value => scalarChars (.bool value)
  | .integer value => scalarChars (.integer value)
  | .number value => scalarChars (.number value)
  | .text value => scalarChars (.text value)

def compactItems : List Json → List (List Char)
  | [] => []
  | item :: rest => compactChars item :: compactItems rest

/-- The compact texts of the members of an object. -/
def compactMembers : List (String × Json) → List (List Char)
  | [] => []
  | (name, value) :: rest => (stringChars name ++ ':' :: compactChars value) :: compactMembers rest

end

/-- Members with the smaller name first. -/
def inOrder (members : List (String × Json)) : List (String × Json) :=
  members.mergeSort fun left right => left.1 ≤ right.1

mutual

/-- A value with the members of every object ordered by name. -/
def sorted : Json → Json
  | .list items => .list (sortedItems items)
  | .object members => .object (inOrder (sortedMembers members))
  | .null => .null
  | .bool value => .bool value
  | .integer value => .integer value
  | .number value => .number value
  | .text value => .text value

/-- Items with the members of every object in them ordered by name. -/
def sortedItems : List Json → List Json
  | [] => []
  | item :: rest => sorted item :: sortedItems rest

/-- Members, as they stand, with the members of every object in them ordered by name. -/
def sortedMembers : List (String × Json) → List (String × Json)
  | [] => []
  | (name, value) :: rest => (name, sorted value) :: sortedMembers rest

end

/-- The line break before an item at a given depth, two blanks a level. -/
def lineBreak (depth : Nat) : List Char :=
  '\n' :: List.replicate (2 * depth) ' '

/-- Pieces on lines of their own between two brackets; without pieces the brackets touch. -/
def bracketed (opening closing : Char) (depth : Nat) (pieces : List (List Char)) : List Char :=
  if pieces.isEmpty then [opening, closing]
  else
    opening :: (lineBreak (depth + 1) ++ separated (',' :: lineBreak (depth + 1)) pieces
      ++ lineBreak depth ++ [closing])

mutual

def indentedChars (depth : Nat) : Json → List Char
  | .list items => bracketed '[' ']' depth (indentedItems (depth + 1) items)
  | .object members => bracketed '\x7b' '\x7d' depth (indentedMembers (depth + 1) members)
  | .null => scalarChars .null
  | .bool value => scalarChars (.bool value)
  | .integer value => scalarChars (.integer value)
  | .number value => scalarChars (.number value)
  | .text value => scalarChars (.text value)

def indentedItems (depth : Nat) : List Json → List (List Char)
  | [] => []
  | item :: rest => indentedChars depth item :: indentedItems depth rest

/-- The indented texts of the members of an object. -/
def indentedMembers (depth : Nat) : List (String × Json) → List (List Char)
  | [] => []
  | (name, value) :: rest =>
      (stringChars name ++ ':' :: ' ' :: indentedChars depth value) :: indentedMembers depth rest

end

def compact (value : Json) : String :=
  String.ofList (compactChars value)

/-- The text that is the same for all orders of members. -/
def canonical (value : Json) : String :=
  compact (sorted value)

/-- The text with every item on a line of its own. -/
def indented (value : Json) : String :=
  String.ofList (indentedChars 0 value)

end Wavetable.Json
