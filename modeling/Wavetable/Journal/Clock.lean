import Wavetable.Catalogue.Timestamp

/-!
Times of records. A clock shows the seconds since the year 1970 as a double; the parts of its
day are those of universal time.
-/

namespace Wavetable.Journal

open Number Catalogue

-- The powers of the core library, whichever other instance is in scope.
attribute [local instance (1100)] instPowNat

/-- The seconds since the beginning of 1970. -/
abbrev Clock := Float

namespace Clock

/-- A double without its fraction. -/
def wholeSeconds (clock : Clock) : Int :=
  match Double.ofFloat clock with
  | .finite negative mantissa exponent =>
      let size : Int := mantissa * 2 ^ exponent.toNat / 2 ^ (-exponent).toNat
      if negative then -size else size
  | _ => 0

/-- The part of the second that has passed, with the sign of the clock. -/
def fraction (clock : Clock) : Float :=
  clock - Float.ofInt clock.wholeSeconds

/-- The whole number nearest to a double; halfway between two it is the even one. -/
def nearestWhole (x : Float) : Int :=
  match Double.ofFloat x with
  | .finite negative mantissa exponent =>
      let size : Int := unitsNearestEven mantissa exponent 0
      if negative then -size else size
  | _ => 0

/-- The time to the nearest microsecond. -/
def moment (clock : Clock) : Timestamp :=
  .ofMicroseconds (clock.wholeSeconds * 1000000 + nearestWhole (clock.fraction * 1000000.0))

/-- The last whole second. -/
def second (clock : Clock) : Int :=
  let whole := clock.wholeSeconds
  if clock.fraction < 0.0 then whole - 1 else whole

/-- The whole thousandths of the second that has begun, three digits with the sign. -/
def thousandths (clock : Clock) : List Char :=
  let count := wholeSeconds (clock.fraction * 1000.0)
  if count < 0 then '-' :: paddedDigits 2 count.natAbs else paddedDigits 3 count.natAbs

/-- The time of a record for programs. -/
def stamp (clock : Clock) : String :=
  let moment := clock.moment
  String.ofList
    (moment.dateChars ++ 'T' :: (moment.clockChars ++ '.' :: (paddedDigits 3 (moment.micro / 1000)
      ++ ['Z'])))

/-- The time of day of a record for a reader, with a mark before the thousandths. -/
def timeOfDay (clock : Clock) (mark : Char) : List Char :=
  (Timestamp.ofMicroseconds (clock.second * 1000000)).clockChars ++ mark :: clock.thousandths

/-- The date of a record for a reader, the year without leading zeros. -/
def date (clock : Clock) : List Char :=
  let (year, month, day) := Timestamp.civil clock.second
  signChars (year < 0) ++ digitChars year.natAbs
    ++ '-' :: paddedDigits 2 month ++ '-' :: paddedDigits 2 day

def dateAndTime (clock : Clock) (mark : Char) : List Char :=
  clock.date ++ ' ' :: clock.timeOfDay mark

end Clock

end Wavetable.Journal
