import Wavetable.Json.Value
import Wavetable.Number.Decimal
import Wavetable.Text.Half
import Wavetable.Text.Integer

/-!
Values read from JSON texts. A reader returns the value of the whole text or says why there is
none; of members with one name the last counts. Readers differ in how deep they follow nested
values, in what they make of half of a surrogate pair and in how long numbers may be.
-/

namespace Wavetable.Json

open Wavetable.Number

/-- The points on which readers differ. -/
structure Dialect where
  /-- The number of lists and objects with something in them that may be open at once. -/
  maxDepth : Option Nat
  /-- Half of a surrogate pair may stand alone; otherwise a text with one is refused. -/
  keepsHalves : Bool
  /-- The limit on the digits of a whole number counts the sign too, and numbers with a fraction
  or a power of ten are held to it as well.
  -/
  limitsAllNumbers : Bool

/-- Why a text is not read: it writes no value, or one list or object too many is open. -/
inductive ReadError
  | malformed
  | tooDeep (inList : Bool)
  deriving Repr, DecidableEq

/-- A part of a text; without one the text is malformed. -/
def orMalformed : Option α → Except ReadError α
  | some part => .ok part
  | none => .error .malformed

/-- The blanks between the tokens of a JSON text. -/
def isSpace (c : Char) : Bool :=
  c = ' ' || c = '\t' || c = '\n' || c = '\r'

/-- A text without the blanks before its next token. -/
def skipSpace (cs : List Char) : List Char :=
  cs.dropWhile isSpace

/-- The value of a hexadecimal digit. -/
def hexValue? (c : Char) : Option Nat :=
  if '0' ≤ c && c ≤ '9' then some (c.toNat - '0'.toNat)
  else if 'a' ≤ c && c ≤ 'f' then some (c.toNat - 'a'.toNat + 10)
  else if 'A' ≤ c && c ≤ 'F' then some (c.toNat - 'A'.toNat + 10)
  else none

/-- The code unit that four hexadecimal digits write. -/
def codeUnit? (a b c d : Char) : Option Nat := do
  let a ← hexValue? a
  let b ← hexValue? b
  let c ← hexValue? c
  let d ← hexValue? d
  pure (((a * 16 + b) * 16 + c) * 16 + d)

/-- The character that a backslash and a letter stand for. -/
def escaped? : Char → Option Char
  | '"' => some '"'
  | '\\' => some '\\'
  | '/' => some '/'
  | 'b' => some '\x08'
  | 'f' => some '\x0c'
  | 'n' => some '\n'
  | 'r' => some '\r'
  | 't' => some '\t'
  | _ => none

/-- The code points and lone code units of a string up to its closing mark, and what follows. -/
def stringUnits : List Char → Option (List Nat × List Char)
  | [] => none
  | '"' :: rest => some ([], rest)
  | '\\' :: 'u' :: a :: b :: c :: d :: rest => do
      let unit ← codeUnit? a b c d
      let (units, rest) ← stringUnits rest
      pure (unit :: units, rest)
  | '\\' :: c :: rest => do
      let unit ← escaped? c
      let (units, rest) ← stringUnits rest
      pure (unit.toNat :: units, rest)
  | c :: rest =>
      if c.toNat < 0x20 then none
      else do
        let (units, rest) ← stringUnits rest
        pure (c.toNat :: units, rest)

/-- The character of a code unit, or the one in the place of a half that stands alone. -/
def unitChar? (keepsHalves : Bool) (unit : Nat) : Option Char :=
  if !(Text.isHighHalf unit || Text.isLowHalf unit) then some (Char.ofNat unit)
  else if keepsHalves then some (Text.halfChar unit)
  else none

/-- Code units as characters: the halves of a pair that stand together are one character. -/
def joinHalves (keepsHalves : Bool) : List Nat → Option (List Char)
  | [] => some []
  | [unit] => (unitChar? keepsHalves unit).map ([·])
  | unit :: next :: rest =>
      if Text.isHighHalf unit && Text.isLowHalf next then
        (joinHalves keepsHalves rest).map (Text.joinedHalves unit next :: ·)
      else do
        let c ← unitChar? keepsHalves unit
        let cs ← joinHalves keepsHalves (next :: rest)
        pure (c :: cs)

/-- A string behind its opening mark, and what follows its closing one. -/
def readString (dialect : Dialect) (cs : List Char) : Option (String × List Char) := do
  let (units, rest) ← stringUnits cs
  let chars ← joinHalves dialect.keepsHalves units
  pure (String.ofList chars, rest)

/-- The digits before the point: a single zero, or digits that start with another one. -/
def readWhole (cs : List Char) : Option (List Char × List Char) :=
  match cs with
  | '0' :: rest => some (['0'], rest)
  | _ =>
      match spanDigits cs with
      | ([], _) => none
      | (digits, rest) => some (digits, rest)

/-- Behind a point, the digits of a fraction, at least one; without a point, nothing. -/
def readFraction : List Char → Option (Option (List Char) × List Char)
  | '.' :: rest =>
      match spanDigits rest with
      | ([], _) => none
      | (digits, rest) => some (some digits, rest)
  | cs => some (none, cs)

/-- Digits before the point are few enough. -/
def Dialect.allows (dialect : Dialect) (negative isWhole : Bool) (digits : List Char) : Bool :=
  if dialect.limitsAllNumbers then
    digits.length + (if negative then 1 else 0) ≤ Text.maxDigits
  else !isWhole || digits.length ≤ Text.maxDigits

/-- A number without its sign: a whole one, or a double where a fraction or a power of ten is
given.
-/
def readSize (dialect : Dialect) (negative : Bool) (cs : List Char)
    : Option (Json × List Char) := do
  let (whole, rest) ← readWhole cs
  let (fraction, rest) ← readFraction rest
  let (power, rest) ← readExponent rest
  if dialect.allows negative (fraction.isNone && power.isNone) whole then
    match fraction, power with
    | none, none =>
        let n : Int := digitsValue whole
        pure (.integer (if negative then -n else n), rest)
    | fraction, power =>
        let x := ofDecimal whole (fraction.getD []) (power.getD 0)
        pure (.number (withSign negative x), rest)
  else none

/-- A value that is neither a string, a list nor an object. -/
def readScalar (dialect : Dialect) : List Char → Option (Json × List Char)
  | 'n' :: 'u' :: 'l' :: 'l' :: rest => some (.null, rest)
  | 't' :: 'r' :: 'u' :: 'e' :: rest => some (.bool true, rest)
  | 'f' :: 'a' :: 'l' :: 's' :: 'e' :: rest => some (.bool false, rest)
  | 'N' :: 'a' :: 'N' :: rest => some (.number nan, rest)
  | 'I' :: 'n' :: 'f' :: 'i' :: 'n' :: 'i' :: 't' :: 'y' :: rest => some (.number infinity, rest)
  | '-' :: 'I' :: 'n' :: 'f' :: 'i' :: 'n' :: 'i' :: 't' :: 'y' :: rest =>
      some (.number (-infinity), rest)
  | '-' :: rest => readSize dialect true rest
  | cs => readSize dialect false cs

/-- The room inside a list or an object that opens. -/
def enter (inList : Bool) : Option Nat → Except ReadError (Option Nat)
  | none => .ok none
  | some 0 => .error (.tooDeep inList)
  | some (room + 1) => .ok (some room)

mutual

/-- A value at the start of a text, and what follows it. Every step takes a character, so fuel
for the length of the text is enough.
-/
def readValue (dialect : Dialect) (room : Option Nat)
    : Nat → List Char → Except ReadError (Json × List Char)
  | 0, _ => .error .malformed
  | fuel + 1, cs =>
      match cs with
      | '"' :: rest =>
          orMalformed ((readString dialect rest).map fun (s, rest) => (.text s, rest))
      | '[' :: rest =>
          match skipSpace rest with
          | ']' :: rest => .ok (.list [], rest)
          | rest => do
              let room ← enter true room
              let (items, rest) ← readItems dialect room fuel rest
              pure (.list items, rest)
      | '\x7b' :: rest =>
          match skipSpace rest with
          | '\x7d' :: rest => .ok (.object [], rest)
          | rest => do
              let room ← enter false room
              let (members, rest) ← readMembers dialect room fuel [] rest
              pure (.object members, rest)
      | cs => orMalformed (readScalar dialect cs)

/-- The items of a list up to its closing bracket, at least one. -/
def readItems (dialect : Dialect) (room : Option Nat)
    : Nat → List Char → Except ReadError (List Json × List Char)
  | 0, _ => .error .malformed
  | fuel + 1, cs => do
      let (item, rest) ← readValue dialect room fuel (skipSpace cs)
      match skipSpace rest with
      | ',' :: rest =>
          let (items, rest) ← readItems dialect room fuel rest
          pure (item :: items, rest)
      | ']' :: rest => pure ([item], rest)
      | _ => .error .malformed

/-- The members of an object up to its closing bracket, at least one, added to those before. -/
def readMembers (dialect : Dialect) (room : Option Nat)
    : Nat → List (String × Json) → List Char
    → Except ReadError (List (String × Json) × List Char)
  | 0, _, _ => .error .malformed
  | fuel + 1, members, cs =>
      match skipSpace cs with
      | '"' :: rest => do
          let (name, rest) ← orMalformed (readString dialect rest)
          match skipSpace rest with
          | ':' :: rest =>
              let (value, rest) ← readValue dialect room fuel (skipSpace rest)
              let members := Members.put members name value
              match skipSpace rest with
              | ',' :: rest => readMembers dialect room fuel members rest
              | '\x7d' :: rest => pure (members, rest)
              | _ => .error .malformed
          | _ => .error .malformed
      | _ => .error .malformed

end

/-- The value that a whole text writes. -/
def read (dialect : Dialect) (s : String) : Except ReadError Json := do
  let cs := skipSpace s.toList
  let (value, rest) ← readValue dialect dialect.maxDepth (2 * cs.length + 2) cs
  if (skipSpace rest).isEmpty then pure value else throw .malformed

/-- The value that a whole text writes, if it is read. -/
def read? (dialect : Dialect) (s : String) : Option Json :=
  (read dialect s).toOption

end Wavetable.Json
