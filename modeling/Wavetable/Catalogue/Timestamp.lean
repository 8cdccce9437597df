import Wavetable.Number.Decimal
import Wavetable.Number.Layout

/-!
Points in time with microseconds and an offset from universal time, or without one. They are
written with a date, a time and the offset, and are also read without seconds, from a date alone
and from a count of seconds or milliseconds since the year 1970.
-/

namespace Wavetable.Catalogue

open Number

-- The powers of the core library, whichever other instance is in scope.
attribute [local instance (1100)] instPowNat

/-- A date and a time of day, with the offset from universal time in seconds if one is given. -/
structure Timestamp where
  year : Nat
  month : Nat
  day : Nat
  hour : Nat
  minute : Nat
  second : Nat
  micro : Nat
  offset : Option Int
  deriving Repr, DecidableEq

namespace Timestamp

/-- Every fourth year is a leap year, of the full centuries only every fourth. -/
def isLeapYear (year : Nat) : Bool :=
  year % 4 = 0 && (year % 100 ≠ 0 || year % 400 = 0)

def daysInMonth (year month : Nat) : Nat :=
  if month = 2 then (if isLeapYear year then 29 else 28)
  else if month = 4 || month = 6 || month = 9 || month = 11 then 30
  else 31

/-- The fields name a day and a time of day. -/
def isValid (t : Timestamp) : Bool :=
  1 ≤ t.year && t.year ≤ 9999 && 1 ≤ t.month && t.month ≤ 12 && 1 ≤ t.day
    && t.day ≤ daysInMonth t.year t.month && t.hour < 24 && t.minute < 60 && t.second < 60
    && t.micro < 1000000

/-- The offset from universal time, with a letter for none. -/
def offsetChars : Option Int → List Char
  | none => []
  | some seconds =>
      if seconds = 0 then ['Z']
      else
        let minutes := seconds.natAbs / 60
        (if seconds < 0 then '-' else '+') :: paddedDigits 2 (minutes / 60)
          ++ ':' :: paddedDigits 2 (minutes % 60)

/-- The microseconds, left out where they are zero. -/
def microChars (micro : Nat) : List Char :=
  if micro = 0 then [] else '.' :: paddedDigits 6 micro

def dateChars (t : Timestamp) : List Char :=
  paddedDigits 4 t.year ++ '-' :: paddedDigits 2 t.month ++ '-' :: paddedDigits 2 t.day

/-- The time of day without microseconds. -/
def clockChars (t : Timestamp) : List Char :=
  paddedDigits 2 t.hour ++ ':' :: paddedDigits 2 t.minute ++ ':' :: paddedDigits 2 t.second

def toText (t : Timestamp) : String :=
  String.ofList
    (t.dateChars ++ 'T' :: (t.clockChars ++ microChars t.micro ++ offsetChars t.offset))

/-- The number that characters write, if all of them are digits. -/
def digits? (cs : List Char) : Option Nat :=
  if !cs.isEmpty && cs.all Char.isDigit then
    some (cs.foldl (fun n c => 10 * n + (c.toNat - '0'.toNat)) 0)
  else none

/-- A field of a fixed number of digits, and what follows it. -/
def field? (width : Nat) (cs : List Char) : Option (Nat × List Char) :=
  if cs.length < width then none
  else (digits? (cs.take width)).map fun n => (n, cs.drop width)

/-- What follows a character, if that comes first. -/
def expect? (c : Char) : List Char → Option (List Char)
  | first :: rest => if first = c then some rest else none
  | [] => none

/-- Digits of a second as microseconds; those beyond the sixth are dropped. -/
def microOfDigits (cs : List Char) : Nat :=
  (digits? ((cs ++ List.replicate 6 '0').take 6)).getD 0

/-- The seconds with their fraction, left out or behind a colon, and what follows them. -/
def seconds? : List Char → Option (Nat × Nat × List Char)
  | ':' :: rest => do
      let (second, rest) ← field? 2 rest
      match rest with
      | mark :: behind =>
          if mark = '.' || mark = ',' then
            let fraction := behind.takeWhile Char.isDigit
            if fraction.isEmpty then none
            else pure (second, microOfDigits fraction, behind.dropWhile Char.isDigit)
          else pure (second, 0, rest)
      | [] => pure (second, 0, [])
  | rest => some (0, 0, rest)

/-- The offset that ends a text; it is shorter than a day. -/
def offset? : List Char → Option (Option Int)
  | [] => some none
  | ['Z'] => some (some 0)
  | ['z'] => some (some 0)
  | sign :: rest =>
      if sign = '+' || sign = '-' || sign = '\u2212' then do
        let (hours, rest) ← field? 2 rest
        let (minutes, rest) ← field? 2 (if rest.head? = some ':' then rest.drop 1 else rest)
        if rest.isEmpty && hours < 24 && minutes < 60 then
          let seconds : Int := 3600 * hours + 60 * minutes
          some (some (if sign = '+' then seconds else -seconds))
        else none
      else none

/-- Fields as a point in time, if they are one. -/
def checked? (t : Timestamp) : Option Timestamp :=
  if t.isValid then some t else none

/-- A date and a time of day. -/
def ofClock? (cs : List Char) : Option Timestamp := do
  let (year, cs) ← field? 4 cs
  let (month, cs) ← field? 2 (← expect? '-' cs)
  let (day, cs) ← field? 2 (← expect? '-' cs)
  match cs with
  | [] => checked? ⟨year, month, day, 0, 0, 0, 0, none⟩
  | separator :: cs =>
      if separator = 'T' || separator = 't' || separator = ' ' || separator = '_' then do
        let (hour, cs) ← field? 2 cs
        let (minute, cs) ← field? 2 (← expect? ':' cs)
        let (second, micro, cs) ← seconds? cs
        let offset ← offset? cs
        checked? ⟨year, month, day, hour, minute, second, micro, offset⟩
      else none

/-- The days from the first of March of the year zero to the first of January 1970. -/
def daysToEpoch : Int := 719468

/-- The year, the month and the day of a second since the beginning of 1970, by cycles of four
hundred years that begin in March.
-/
def civil (second : Int) : Int × Nat × Nat :=
  let days := second / 86400 + daysToEpoch
  let cycle := days / 146097
  let dayOfCycle := (days % 146097).toNat
  let yearOfCycle :=
    (dayOfCycle - dayOfCycle / 1460 + dayOfCycle / 36524 - dayOfCycle / 146096) / 365
  let dayOfYear := dayOfCycle - (365 * yearOfCycle + yearOfCycle / 4 - yearOfCycle / 100)
  let shifted := (5 * dayOfYear + 2) / 153
  let day := dayOfYear - (153 * shifted + 2) / 5 + 1
  let month := if shifted < 10 then shifted + 3 else shifted - 9
  let year : Int := yearOfCycle + 400 * cycle + (if month ≤ 2 then 1 else 0)
  (year, month, day)

/-- The point in time so many microseconds after the beginning of 1970, in universal time. A year
before the year zero has no number here and is taken for that.
-/
def ofMicroseconds (micros : Int) : Timestamp :=
  let seconds := micros / 1000000
  let (year, month, day) := civil seconds
  let secondOfDay := (seconds % 86400).toNat
  ⟨year.toNat, month, day, secondOfDay / 3600, secondOfDay / 60 % 60, secondOfDay % 60,
    (micros % 1000000).toNat, some 0⟩

/-- The second before which no point in time lies, the first of the year 1. -/
def firstSecond : Int := -62135596800

/-- The second after which no point in time lies, the last of the year 9999. -/
def lastSecond : Int := 253402300799

/-- The point in time so many microseconds after the beginning of 1970, in the years 1 to 9999. -/
def ofMicroseconds? (micros : Int) : Option Timestamp :=
  let second := micros / 1000000
  if firstSecond ≤ second && second ≤ lastSecond then some (ofMicroseconds micros) else none

/-- The largest size of a count that is one of seconds; beyond it milliseconds are counted. -/
def largestSeconds : Int := 20000000000

/-- The microseconds of a unit of a count. -/
def unitOf (inMilliseconds : Bool) : Int :=
  if inMilliseconds then 1000 else 1000000

/-- The point in time of a whole count of seconds or milliseconds since 1970. -/
def ofEpoch? (count : Int) : Option Timestamp :=
  ofMicroseconds? (count * unitOf (count.natAbs > largestSeconds))

/-- The point in time of a count with a fraction. The count is rounded down to whole units, and
what that leaves of it, as a double, to the nearest microsecond.
-/
def ofEpochFloat? (x : Float) : Option Timestamp := do
  let unit := unitOf (x.abs > Float.ofInt largestSeconds)
  let whole ← (Double.ofFloat x).floor?
  let micros ← (Double.ofFloat ((x - Float.ofInt whole) * Float.ofInt unit)).nearest?
  ofMicroseconds? (whole * unit + micros)

/-- The largest whole number that a count may have before its point. -/
def largestCount : Nat := 2 ^ (63 : Nat) - 1

/-- The double that a text writes from the point of its digits on. -/
def decimalFrom? (negative : Bool) (whole cs : List Char) : Option Float := do
  let (fraction, rest) := spanDigits cs
  let (power, rest) ← readExponent rest
  if rest.isEmpty && !(whole.isEmpty && fraction.isEmpty) then
    some (withSign negative (ofDecimal whole fraction (power.getD 0)))
  else none

/-- The point in time that a text counts behind its sign: with digits alone a whole number, with a
point behind or before them a double, whose power of ten may follow.
-/
def ofUnsignedCount? (negative : Bool) (cs : List Char) : Option Timestamp :=
  let (digits, rest) := spanDigits cs
  let n := digitsValue digits
  if n ≤ largestCount then
    match rest with
    | [] => if digits.isEmpty then none else ofEpoch? (if negative then -n else n)
    | '.' :: rest => (decimalFrom? negative digits rest).bind ofEpochFloat?
    | _ => none
  else none

/-- The point in time that a text counts. -/
def ofCount? : List Char → Option Timestamp
  | '-' :: rest => ofUnsignedCount? true rest
  | '+' :: rest => ofUnsignedCount? false rest
  | cs => ofUnsignedCount? false cs

/-- The point in time that a text gives, as a date or as a count. -/
def ofText? (s : String) : Option Timestamp :=
  match ofClock? s.toList with
  | some t => some t
  | none => ofCount? s.toList

end Timestamp

end Wavetable.Catalogue
