import Wavetable.Number.Double

/-!
Doubles read from decimals, and the parts of a decimal at the start of a text. Sizes that are far
beyond the range of the doubles on either side are decided by the length of the text, without
computing the power of ten.
-/

namespace Wavetable.Number

/-- The value of decimal digits, most significant first. -/
def digitsValue (cs : List Char) : Nat :=
  cs.foldl (fun n c => 10 * n + (c.toNat - '0'.toNat)) 0

/-- The double nearest to `digits * 10 ^ exponent`, where the digits are no longer than told. -/
def nearestDouble (digits length : Nat) (exponent : Int) : Float :=
  if digits = 0 || exponent + length < -400 then 0.0
  else if 400 < exponent then infinity
  else if exponent < 0 then Float.ofScientific digits true exponent.natAbs
  else Float.ofScientific digits false exponent.natAbs

/-- The double nearest to a decimal with digits before and behind the point. -/
def ofDecimal (whole fraction : List Char) (exponent : Int) : Float :=
  let cs := whole ++ fraction
  nearestDouble (digitsValue cs) cs.length (exponent - fraction.length)

/-- The digits at the start of a text, and what follows them. -/
def spanDigits (cs : List Char) : List Char × List Char :=
  cs.span Char.isDigit

/-- The sign and the digits of a power of ten, at least one digit. -/
def readPower (cs : List Char) : Option (Int × List Char) :=
  let (negative, cs) :=
    match cs with
    | '-' :: rest => (true, rest)
    | '+' :: rest => (false, rest)
    | cs => (false, cs)
  match spanDigits cs with
  | ([], _) => none
  | (digits, rest) =>
      let power : Int := digitsValue digits
      some (if negative then -power else power, rest)

/-- Behind the letter for it, a power of ten; without the letter, nothing. -/
def readExponent : List Char → Option (Option Int × List Char)
  | 'e' :: rest => (readPower rest).map fun (power, rest) => (some power, rest)
  | 'E' :: rest => (readPower rest).map fun (power, rest) => (some power, rest)
  | cs => some (none, cs)

end Wavetable.Number
