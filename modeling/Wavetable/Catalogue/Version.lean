import Wavetable.Json.Value
import Wavetable.Number.Double
import Wavetable.Text.Integer

/-!
The version of a state. It is a whole number in one of many forms, of which only the validity
matters. A text is brought to its plain form in steps: no blanks around, no plus sign, no leading
zeros, no fraction of zeros, no single underscores. What is then no plain numeral is refused.
-/

namespace Wavetable.Catalogue.Version

/-- The characters of a text without the padding at both ends. -/
def withoutPadding (cs : List Char) : List Char :=
  ((cs.dropWhile Text.isNumberPadding).reverse.dropWhile Text.isNumberPadding).reverse

/-- A text without a plus sign, which no minus sign may follow. -/
def withoutPlus? : List Char → Option (List Char)
  | '+' :: '-' :: _ => none
  | '+' :: rest => some rest
  | cs => some cs

def isLeadingDigit (c : Char) : Bool :=
  '1' ≤ c && c ≤ '9'

/-- What follows leading zeros and the underscores among them. The last of them stays where it is
the whole text and before a point. Other characters than a digit, a minus sign and a point are
refused behind it.
-/
def withoutZerosAfter? (last : Char) : List Char → Option (List Char)
  | [] => some [last]
  | c :: rest =>
      if c = '0' || c = '_' then withoutZerosAfter? c rest
      else if isLeadingDigit c || c = '-' then some (c :: rest)
      else if c = '.' then some (last :: c :: rest)
      else none

/-- A text that starts with a digit or a minus sign, without leading zeros. Behind a minus sign
none are dropped.
-/
def withoutLeadingZeros? : List Char → Option (List Char)
  | '0' :: rest => withoutZerosAfter? '0' rest
  | c :: rest => if isLeadingDigit c || c = '-' then some (c :: rest) else none
  | [] => none

/-- A text without the point and the zeros behind it, of which there has to be at least one. -/
def withoutZeroFraction (cs : List Char) : List Char :=
  let fraction := (cs.dropWhile (· ≠ '.')).drop 1
  if !fraction.isEmpty && fraction.all (· == '0') then cs.takeWhile (· ≠ '.') else cs

def hasUnderscorePair : List Char → Bool
  | '_' :: '_' :: _ => true
  | _ :: rest => hasUnderscorePair rest
  | [] => false

/-- A text without its underscores, if they are single and within it. -/
def withoutUnderscores (cs : List Char) : List Char :=
  if cs.head? = some '_' || cs.getLast? = some '_' || hasUnderscorePair cs then cs
  else cs.filter (· ≠ '_')

def plainForm? (cs : List Char) : Option (List Char) := do
  let cs ← withoutPlus? (withoutPadding cs)
  let cs ← withoutLeadingZeros? cs
  pure (withoutUnderscores (withoutZeroFraction cs))

/-- Zero, or digits that start with another one. -/
def isPlainNatural : List Char → Bool
  | ['0'] => true
  | c :: rest => isLeadingDigit c && rest.all Char.isDigit
  | [] => false

/-- A natural number in plain form, with or without a minus sign, of limited length. -/
def isPlain (cs : List Char) : Bool :=
  cs.length ≤ Text.maxDigits
    && (if cs.head? = some '-' then isPlainNatural (cs.drop 1) else isPlainNatural cs)

/-- A text that writes a whole number. -/
def isWholeText (s : String) : Bool :=
  match plainForm? s.toList with
  | some cs => isPlain cs
  | none => false

/-- The size from which on doubles are refused, even whole ones. -/
def tooLarge : Float := 9223372036854775808.0

/-- A value that is a whole number; a truth value counts as one. -/
def isWhole : Json → Bool
  | .bool _ => true
  | .integer _ => true
  | .number x => x.isFinite && Number.wholePart x.abs == x.abs && x.abs < tooLarge
  | .text s => isWholeText s
  | _ => false

end Wavetable.Catalogue.Version
