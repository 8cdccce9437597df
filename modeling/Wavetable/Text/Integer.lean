import Wavetable.Text.Blank
import Wavetable.Text.Quoted

/-!
Whole numbers read from a text that a person wrote: blanks around, one sign, decimal digits of
any script, and single underscores between digits.
-/

namespace Wavetable.Text

/-- The code points of the digit zero of each script; its nine successors are the other digits. -/
def digitZeros : List Nat :=
  [0x30, 0x660, 0x6f0, 0x7c0, 0x966, 0x9e6, 0xa66, 0xae6, 0xb66, 0xbe6, 0xc66, 0xce6, 0xd66, 0xde6,
   0xe50, 0xed0, 0xf20, 0x1040, 0x1090, 0x17e0, 0x1810, 0x1946, 0x19d0, 0x1a80, 0x1a90, 0x1b50,
   0x1bb0, 0x1c40, 0x1c50, 0xa620, 0xa8d0, 0xa900, 0xa9d0, 0xa9f0, 0xaa50, 0xabf0, 0xff10, 0x104a0,
   0x10d30, 0x11066, 0x110f0, 0x11136, 0x111d0, 0x112f0, 0x11450, 0x114d0, 0x11650, 0x116c0,
   0x11730, 0x118e0, 0x11950, 0x11c50, 0x11d50, 0x11da0, 0x16a60, 0x16ac0, 0x16b50, 0x1d7ce,
   0x1d7d8, 0x1d7e2, 0x1d7ec, 0x1d7f6, 0x1e140, 0x1e2f0, 0x1e950, 0x1fbf0]

/-- The value of a decimal digit of any script. -/
def digitValue? (c : Char) : Option Nat :=
  match digitZeros.find? fun first => first ≤ c.toNat && c.toNat ≤ first + 9 with
  | some first => some (c.toNat - first)
  | none => none

/-- The blanks allowed around a whole number: of the ASCII ones only the space and the five
controls from the tabulator to the carriage return.
-/
def isNumberPadding (c : Char) : Bool :=
  c = ' ' || ('\t' ≤ c && c ≤ '\r') || (0x80 ≤ c.toNat && isBlank c)

inductive IntegerError
  | malformed
  | tooManyDigits (count : Nat)
  deriving DecidableEq, Repr

/-- The largest number of digits that is still converted. -/
def maxDigits : Nat := 4300

/-- Digit values with single underscores between them; the flag says that a digit has to follow. -/
def digitRun (owed : Bool) : List Char → Option (List Nat)
  | [] => if owed then none else some []
  | '_' :: rest => if owed then none else digitRun true rest
  | c :: rest => do
      let value ← digitValue? c
      let values ← digitRun false rest
      pure (value :: values)

/-- The number that digit values write, most significant first. -/
def ofDigits (values : List Nat) : Nat :=
  values.foldl (fun n value => 10 * n + value) 0

/-- A character that may stand in a digit run. -/
def isRunChar (c : Char) : Bool :=
  c = '_' || (digitValue? c).isSome

/-- A digit run as a number, if it is not longer than allowed; its length is judged before what
follows it.
-/
def naturalOf (cs : List Char) : Except IntegerError Nat :=
  match digitRun true (cs.takeWhile isRunChar) with
  | none => .error .malformed
  | some values =>
      if maxDigits < values.length then .error (.tooManyDigits values.length)
      else if (cs.dropWhile isRunChar).isEmpty then .ok (ofDigits values)
      else .error .malformed

def integer (s : String) : Except IntegerError Int :=
  let body := ((s.toList.dropWhile isNumberPadding).reverse.dropWhile isNumberPadding).reverse
  match body with
  | '-' :: rest => (naturalOf rest).map fun n => -(n : Int)
  | '+' :: rest => (naturalOf rest).map fun n => (n : Int)
  | cs => (naturalOf cs).map fun n => (n : Int)

end Wavetable.Text
