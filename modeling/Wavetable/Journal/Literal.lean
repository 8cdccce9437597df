import Wavetable.Json.Writer
import Wavetable.Text.Quoted

/-!
Values as messages show them: texts in marks, and the two truth values and the missing value by
their names. A text on its own is shown without marks.
-/

namespace Wavetable.Journal

open Number Json

/-- The shown form of a value that is neither a list nor an object. -/
def scalarLiteral : Json → List Char
  | .null => ['N', 'o', 'n', 'e']
  | .bool true => ['T', 'r', 'u', 'e']
  | .bool false => ['F', 'a', 'l', 's', 'e']
  | .integer n => integerChars n
  | .number x => (dataText x).toList
  | .text s => Text.quoteChars s.toList
  | .list _ => []
  | .object _ => []

mutual

/-- The characters of the shown form of a value. -/
def literalChars : Json → List Char
  | .list items => '[' :: (separated [',', ' '] (literalItems items) ++ [']'])
  | .object members => '\x7b' :: (separated [',', ' '] (literalMembers members) ++ ['\x7d'])
  | .null => scalarLiteral .null
  | .bool value => scalarLiteral (.bool value)
  | .integer value => scalarLiteral (.integer value)
  | .number value => scalarLiteral (.number value)
  | .text value => scalarLiteral (.text value)

/-- The shown forms of the items of a list. -/
def literalItems : List Json → List (List Char)
  | [] => []
  | item :: rest => literalChars item :: literalItems rest

/-- The shown forms of the members of an object. -/
def literalMembers : List (String × Json) → List (List Char)
  | [] => []
  | (name, value) :: rest =>
      (Text.quoteChars name.toList ++ ':' :: ' ' :: literalChars value) :: literalMembers rest

end

def literal (value : Json) : String :=
  String.ofList (literalChars value)

/-- The shown form of a value, a text without marks. -/
def plainText : Json → String
  | .text s => s
  | value => literal value

end Wavetable.Journal
