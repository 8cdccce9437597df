import Wavetable.Number.Rounding
import Wavetable.Number.Shortest

/-!
Texts of doubles. The shortest decimal is laid out positionally for formulas and with a power of
ten where it is long for data, and given counts of places are rounded from the exact value.
-/

namespace Wavetable.Number

-- The powers of the core library, whichever other instance is in scope.
attribute [local instance (1100)] instPowNat

/-- The decimal digits of a whole number, most significant first. -/
def digitChars (n : Nat) : List Char :=
  Nat.toDigits 10 n

/-- At least a given count of digits, filled up with leading zeros. -/
def paddedDigits (width n : Nat) : List Char :=
  let digits := digitChars n
  List.replicate (width - digits.length) '0' ++ digits

/-- A whole number of units `10 ^ exponent` in positional notation, with a point only where
digits follow it.
-/
def positionalChars (digits : Nat) (exponent : Int) : List Char :=
  if 0 ≤ exponent then digitChars (digits * 10 ^ exponent.toNat)
  else
    let places := (-exponent).toNat
    let cs := paddedDigits (places + 1) digits
    cs.take (cs.length - places) ++ '.' :: cs.drop (cs.length - places)

/-- The minus of a negative number, before its size. -/
def signChars (negative : Bool) : List Char :=
  if negative then ['-'] else []

/-- The text of a double whose finite size is laid out by the given function; the others have
the names NaN and infinity go by in data.
-/
def withNames (notANumber unbounded : List Char) (x : Float)
    (size : Nat → Int → List Char) : String :=
  match Double.ofFloat x with
  | .nan => String.ofList notANumber
  | .infinite negative => String.ofList (signChars negative ++ unbounded)
  | .finite negative mantissa exponent =>
      String.ofList (signChars negative ++ size mantissa exponent)

/-- The short names of the two sizes that are no number. -/
def named (x : Float) (size : Nat → Int → List Char) : String :=
  withNames ['n', 'a', 'n'] ['i', 'n', 'f'] x size

/-- A double in positional notation by its shortest decimal, as formulas write it. -/
def positional (x : Float) : String :=
  named x fun mantissa exponent =>
    let decimal := shortest mantissa exponent
    positionalChars decimal.digits decimal.exponent

/-- A power of ten as the end of a text: sign and at least two digits. -/
def powerChars (exponent : Int) : List Char :=
  'e' :: (if exponent < 0 then '-' else '+') :: paddedDigits 2 exponent.natAbs

/-- One digit, the others behind a point, and a power of ten. -/
def scientificChars (cs : List Char) (power : Int) : List Char :=
  match cs with
  | [] => []
  | [c] => c :: powerChars power
  | c :: rest => c :: '.' :: (rest ++ powerChars power)

/-- The size of a double as data writes it: the shortest decimal, positional from a ten
thousandth up to `10 ^ 16` and always with a point there.
-/
def dataChars (mantissa : Nat) (exponent : Int) : List Char :=
  let decimal := shortest mantissa exponent
  let cs := digitChars decimal.digits
  let power := decimal.exponent + cs.length - 1
  if power < -4 || 16 ≤ power then scientificChars cs power
  else
    let text := positionalChars decimal.digits decimal.exponent
    if text.contains '.' then text else text ++ ['.', '0']

def dataText (x : Float) : String :=
  named x dataChars

/-- A size rounded to a count of decimal places. -/
def fixedChars (places : Nat) (mantissa : Nat) (exponent : Int) : List Char :=
  let value := Ratio.ofBinary mantissa exponent
  positionalChars (divNearestEven (value.num * 10 ^ places) value.den) (-(places : Int))

/-- A double rounded to a count of decimal places. -/
def fixed (places : Nat) (x : Float) : String :=
  named x (fixedChars places)

/-- A size rounded to a count of significant digits, with the power of ten of the first one. -/
def significant (count mantissa : Nat) (exponent : Int) : Nat × Int :=
  if mantissa = 0 then (0, 0)
  else
    let value := Ratio.ofBinary mantissa exponent
    let power := value.magnitude - 1
    let units := value.inUnits (power - (count - 1 : Nat))
    let digits := divNearestEven units.num units.den
    if digits = 10 ^ count then (10 ^ (count - 1), power + 1) else (digits, power)

/-- A size with a power of ten and a count of places behind the first digit. -/
def exponentialChars (places mantissa : Nat) (exponent : Int) : List Char :=
  let (digits, power) := significant (places + 1) mantissa exponent
  scientificChars (paddedDigits (places + 1) digits) power

/-- A double with a power of ten and a count of places behind the first digit. -/
def exponential (places : Nat) (x : Float) : String :=
  named x (exponentialChars places)

/-- A text behind whose point no zeros stand at the end, nor the point alone. -/
def withoutIdleZeros (cs : List Char) : List Char :=
  if cs.contains '.' then
    let kept := (cs.reverse.dropWhile (· == '0'))
    (if kept.head? = some '.' then kept.drop 1 else kept).reverse
  else cs

/-- A size in a count of significant digits, positional where its power of ten is neither below
the ten thousandth nor beyond the digits.
-/
def generalChars (keepZeros : Bool) (count mantissa : Nat) (exponent : Int) : List Char :=
  let count := max count 1
  let (digits, power) := significant count mantissa exponent
  let tidy := fun cs => if keepZeros then cs else withoutIdleZeros cs
  if power < -4 || (count : Int) ≤ power then
    let cs := paddedDigits count digits
    tidy (cs.take 1 ++ '.' :: cs.drop 1) ++ powerChars power
  else
    let places := (count : Int) - 1 - power
    let text := positionalChars digits (-places)
    if places = 0 && keepZeros then text ++ ['.'] else tidy text

end Wavetable.Number
