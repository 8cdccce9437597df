import Wavetable.Json.Reader
import Wavetable.Number.Layout

/-!
The standard grammar of JSON texts, stated without the reader and the writer, with the value that
each text writes. It has no names for doubles that are no number. Members are kept as they are
written, all of them.
-/

namespace Wavetable.Json

open Wavetable.Number

-----------------------------------------------------------------------------------------
-- Strings
-----------------------------------------------------------------------------------------

/-- The inside of a string, with its code units. All characters but the two marks and the controls
stand for themselves. Behind a backslash, a letter stands for a character, and four hexadecimal
digits with the letter `u` before them for a code unit.
-/
inductive WritesUnits : List Char → List Nat → Prop
  | nothing : WritesUnits [] []
  | plain {c cs units} (noMark : c ≠ '"') (noBackslash : c ≠ '\\') (noControl : 0x20 ≤ c.toNat)
    (rest : WritesUnits cs units)
    : WritesUnits (c :: cs) (c.toNat :: units)
  | named {letter c cs units} (named : escaped? letter = some c) (rest : WritesUnits cs units)
    : WritesUnits ('\\' :: letter :: cs) (c.toNat :: units)
  | coded {a b c d unit cs units} (coded : codeUnit? a b c d = some unit)
    (rest : WritesUnits cs units)
    : WritesUnits ('\\' :: 'u' :: a :: b :: c :: d :: cs) (unit :: units)

/-- A string between its marks. The halves of a pair that stand together are one character. -/
inductive WritesString : List Char → String → Prop
  | intro {cs units chars} (inside : WritesUnits cs units)
    (joined : joinHalves true units = some chars)
    : WritesString ('"' :: (cs ++ ['"'])) (String.ofList chars)

-----------------------------------------------------------------------------------------
-- Numbers
-----------------------------------------------------------------------------------------

/-- The digits before a point: a zero alone, or digits that do not begin with one. -/
structure IsWhole (digits : List Char) : Prop where
  someDigits : digits ≠ []
  each : ∀ c ∈ digits, c.isDigit = true
  noIdleZero : ∀ rest, digits = '0' :: rest → rest = []

/-- Nothing, or a point and at least one digit. -/
inductive WritesFraction : List Char → Option (List Char) → Prop
  | nothing : WritesFraction [] none
  | point {digits} (someDigits : digits ≠ []) (each : ∀ c ∈ digits, c.isDigit = true)
    : WritesFraction ('.' :: digits) (some digits)

/-- The sign of a power of ten, which may be left out. -/
inductive WritesSign : List Char → Bool → Prop
  | nothing : WritesSign [] false
  | plus : WritesSign ['+'] false
  | minus : WritesSign ['-'] true

/-- Nothing, or a letter and a power of ten with at least one digit. -/
inductive WritesPower : List Char → Option Int → Prop
  | nothing : WritesPower [] none
  | letter {letter sign digits negative} (letters : letter = 'e' ∨ letter = 'E')
    (signed : WritesSign sign negative) (someDigits : digits ≠ [])
    (each : ∀ c ∈ digits, c.isDigit = true)
    : WritesPower (letter :: (sign ++ digits))
        (some (if negative then -(digitsValue digits : Int) else digitsValue digits))

/-- A number: a whole one, or a double where a fraction or a power of ten is given. -/
inductive WritesNumber : List Char → Json → Prop
  | whole (negative : Bool) {digits} (whole : IsWhole digits)
    : WritesNumber (signChars negative ++ digits)
        (.integer (if negative then -(digitsValue digits : Int) else digitsValue digits))
  | double (negative : Bool) {digits fraction tail places power} (whole : IsWhole digits)
    (fractional : WritesFraction fraction places) (powered : WritesPower tail power)
    (marked : places.isSome ∨ power.isSome)
    : WritesNumber (signChars negative ++ (digits ++ (fraction ++ tail)))
        (.number (withSign negative (ofDecimal digits (places.getD []) (power.getD 0))))

-----------------------------------------------------------------------------------------
-- Values
-----------------------------------------------------------------------------------------

/-- Blanks, as many as there may be between tokens. -/
def IsBlank (cs : List Char) : Prop :=
  ∀ c ∈ cs, isSpace c = true

mutual

/-- A value with nothing around it. -/
inductive WritesValue : List Char → Json → Prop
  | null : WritesValue ['n', 'u', 'l', 'l'] .null
  | yes : WritesValue ['t', 'r', 'u', 'e'] (.bool true)
  | no : WritesValue ['f', 'a', 'l', 's', 'e'] (.bool false)
  | number {cs value} (written : WritesNumber cs value) : WritesValue cs value
  | text {cs s} (written : WritesString cs s) : WritesValue cs (.text s)
  | emptyList {blanks} (blank : IsBlank blanks) : WritesValue ('[' :: (blanks ++ [']'])) (.list [])
  | list {cs items} (inside : WritesItems cs items)
    : WritesValue ('[' :: (cs ++ [']'])) (.list items)
  | emptyObject {blanks} (blank : IsBlank blanks)
    : WritesValue ('\x7b' :: (blanks ++ ['\x7d'])) (.object [])
  | object {cs members} (inside : WritesMembers cs members)
    : WritesValue ('\x7b' :: (cs ++ ['\x7d'])) (.object members)

/-- A value between blanks. -/
inductive WritesElement : List Char → Json → Prop
  | intro {before cs after value} (blank : IsBlank before) (inner : WritesValue cs value)
    (blank' : IsBlank after)
    : WritesElement (before ++ (cs ++ after)) value

/-- One or more items with commas between them. -/
inductive WritesItems : List Char → List Json → Prop
  | last {cs item} (inner : WritesElement cs item) : WritesItems cs [item]
  | more {cs others item items} (inner : WritesElement cs item) (rest : WritesItems others items)
    : WritesItems (cs ++ ',' :: others) (item :: items)

/-- A name between blanks, a colon and a value. -/
inductive WritesMember : List Char → String × Json → Prop
  | intro {before name after cs s value} (blank : IsBlank before) (named : WritesString name s)
    (blank' : IsBlank after) (inner : WritesElement cs value)
    : WritesMember (before ++ (name ++ (after ++ ':' :: cs))) (s, value)

/-- One or more members with commas between them. -/
inductive WritesMembers : List Char → List (String × Json) → Prop
  | last {cs member} (inner : WritesMember cs member) : WritesMembers cs [member]
  | more {cs others member members} (inner : WritesMember cs member)
    (rest : WritesMembers others members)
    : WritesMembers (cs ++ ',' :: others) (member :: members)

end

/-- A whole text writes a value. -/
def IsTextOf (s : String) (value : Json) : Prop :=
  WritesElement s.toList value

end Wavetable.Json
