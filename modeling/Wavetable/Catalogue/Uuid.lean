import Wavetable.Json.Reader
import Wavetable.Text.Quoted

/-!
Identifiers of 128 bits. They are written in five groups of lower-case digits; read are also
capital digits, digits without groups, braces around the groups, and the form of a resource name.
-/

namespace Wavetable.Catalogue

/-- An identifier, as the number that its digits write. -/
structure Uuid where
  value : Nat
  deriving Repr, DecidableEq

namespace Uuid

/-- The identifier of sixteen bytes, most significant first. -/
def ofBytes (bytes : List UInt8) : Uuid :=
  ⟨bytes.foldl (fun n byte => 256 * n + byte.toNat) 0⟩

/-- The digits in groups of eight, four, four, four and twelve. -/
def grouped (digits : List Char) : List Char :=
  digits.take 8 ++ '-' :: ((digits.drop 8).take 4 ++ '-' :: ((digits.drop 12).take 4
    ++ '-' :: ((digits.drop 16).take 4 ++ '-' :: digits.drop 20)))

def toText (id : Uuid) : String :=
  String.ofList (grouped (Text.hexDigits 32 id.value))

/-- The identifier that 32 digits write. -/
def ofDigits? (digits : List Char) : Option Uuid :=
  if digits.length = 32 then
    (digits.mapM Json.hexValue?).map fun values => ⟨values.foldl (fun n d => 16 * n + d) 0⟩
  else none

/-- The digits of a form in groups. -/
def ungrouped? (cs : List Char) : Option (List Char) :=
  let digits := cs.filter (· ≠ '-')
  if grouped digits = cs then some digits else none

/-- The identifier that characters write in one of the accepted forms. -/
def ofChars? : List Char → Option Uuid
  | '\x7b' :: rest =>
      if rest.getLast? = some '\x7d' then ungrouped? rest.dropLast >>= ofDigits? else none
  | 'u' :: 'r' :: 'n' :: ':' :: 'u' :: 'u' :: 'i' :: 'd' :: ':' :: rest =>
      ungrouped? rest >>= ofDigits?
  | cs => if cs.contains '-' then ungrouped? cs >>= ofDigits? else ofDigits? cs

def ofText? (s : String) : Option Uuid :=
  ofChars? s.toList

end Uuid

end Wavetable.Catalogue
