import Wavetable.Journal.Literal

/-!
Message templates. A percent sign starts a place for an argument, which is laid out by the
letter that ends the place, in a width and with a precision; two of them stand for one. The
arguments are a row, taken in order, or one object, whose members are taken by name. A template
that does not fit its arguments has no text.
-/

namespace Wavetable.Journal.Template

open Number

-- The powers of the core library, whichever other instance is in scope.
attribute [local instance (1100)] instPowNat

/-- The marks between the percent sign and the width of a place. -/
structure Flags where
  left : Bool := false
  plus : Bool := false
  blank : Bool := false
  marked : Bool := false
  zeros : Bool := false
  deriving Repr, DecidableEq

/-- A width or a precision: written in the template or taken from the arguments. -/
inductive Measure
  | absent
  | given (count : Nat)
  | argument
  deriving Repr, DecidableEq

/-- A place for an argument. -/
structure Place where
  key : Option String
  flags : Flags
  width : Measure
  precision : Measure
  letter : Char
  deriving Repr, DecidableEq

/-- A part of a template. -/
inductive Piece
  | literal (c : Char)
  | place (place : Place)
  deriving Repr, DecidableEq

/-! Reading a template. -/

/-- The characters up to the parenthesis that closes as many as are open, and what follows it. -/
def keyChars? (depth : Nat) : List Char → Option (List Char × List Char)
  | [] => none
  | c :: rest =>
      if c = ')' && depth = 0 then some ([], rest)
      else
        let depth := if c = '(' then depth + 1 else if c = ')' then depth - 1 else depth
        (keyChars? depth rest).map fun (key, rest) => (c :: key, rest)

/-- The name in parentheses at the start, if there is one, and what follows it. -/
def key? : List Char → Option (Option String × List Char)
  | '(' :: rest => (keyChars? 0 rest).map fun (key, rest) => (some (String.ofList key), rest)
  | cs => some (none, cs)

def Flags.set? (flags : Flags) (c : Char) : Option Flags :=
  match c with
  | '-' => some { flags with left := true }
  | '+' => some { flags with plus := true }
  | ' ' => some { flags with blank := true }
  | '#' => some { flags with marked := true }
  | '0' => some { flags with zeros := true }
  | _ => none

/-- The flags at the start, and what follows them. -/
def readFlags (flags : Flags) : List Char → Flags × List Char
  | [] => (flags, [])
  | c :: rest =>
      match flags.set? c with
      | some flags => readFlags flags rest
      | none => (flags, c :: rest)

/-- The number that digits write; none of them write zero. -/
def numberOf (cs : List Char) : Nat :=
  cs.foldl (fun n c => 10 * n + (c.toNat - '0'.toNat)) 0

/-- The width at the start, and what follows it. -/
def readWidth (cs : List Char) : Measure × List Char :=
  match cs with
  | '*' :: rest => (.argument, rest)
  | _ =>
      let digits := cs.takeWhile Char.isDigit
      (if digits.isEmpty then .absent else .given (numberOf digits), cs.dropWhile Char.isDigit)

/-- The precision at the start, behind a point, and what follows it. A point alone is zero. -/
def readPrecision (cs : List Char) : Measure × List Char :=
  match cs with
  | '.' :: '*' :: rest => (.argument, rest)
  | '.' :: rest => (.given (numberOf (rest.takeWhile Char.isDigit)), rest.dropWhile Char.isDigit)
  | _ => (.absent, cs)

/-- What follows one letter for the size of a number, which changes nothing. -/
def skipSize : List Char → List Char
  | c :: rest => if c = 'h' || c = 'l' || c = 'L' then rest else c :: rest
  | [] => []

/-- The place behind a percent sign, and what follows it. -/
def place? (cs : List Char) : Option (Place × List Char) :=
  match key? cs with
  | none => none
  | some (key, cs) =>
      let (flags, cs) := readFlags {} cs
      let (width, cs) := readWidth cs
      let (precision, cs) := readPrecision cs
      match skipSize cs with
      | [] => none
      | letter :: rest => some (⟨key, flags, width, precision, letter⟩, rest)

/-- The pieces of a template of at most so many characters. -/
def piecesWithin : Nat → List Char → Option (List Piece)
  | _, [] => some []
  | 0, _ :: _ => none
  | fuel + 1, c :: rest =>
      if c = '%' then
        match rest with
        | '%' :: rest => (piecesWithin fuel rest).map (.literal '%' :: ·)
        | _ => do
            let (place, rest) ← place? rest
            let pieces ← piecesWithin fuel rest
            pure (.place place :: pieces)
      else (piecesWithin fuel rest).map (.literal c :: ·)

def pieces? (template : String) : Option (List Piece) :=
  piecesWithin template.toList.length template.toList

/-! Taking arguments. -/

/-- The arguments that are left: a row, or an object together with the value in hand. -/
inductive Arguments
  | row (values : List Json)
  | table (members : Json.Members) (current : Option Json)

/-- The arguments of a template: one object that is not empty is taken apart by name. -/
def Arguments.ofList : List Json → Arguments
  | [.object (member :: members)] => .table (member :: members) (some (.object (member :: members)))
  | values => .row values

/-- The next value, and the arguments without it. -/
def Arguments.next? : Arguments → Option (Json × Arguments)
  | .row (value :: rest) => some (value, .row rest)
  | .row [] => none
  | .table members (some value) => some (value, .table members none)
  | .table _ none => none

/-- The arguments with the member of a name in hand. -/
def Arguments.select? : Arguments → String → Option Arguments
  | .row _, _ => none
  | .table members _, key =>
      (Json.Members.get? members key).map fun value => .table members (some value)

/-- All values of a row have been taken. -/
def Arguments.isSpent : Arguments → Bool
  | .row values => values.isEmpty
  | .table _ _ => true

/-- A whole number as an argument; a truth value counts as zero or one. -/
def whole? : Json → Option Int
  | .integer n => some n
  | .bool b => some (if b then 1 else 0)
  | _ => none

/-- The value of a measure, and the arguments without what it took. -/
def Measure.resolve? (measure : Measure) (arguments : Arguments)
    : Option (Option Int × Arguments) :=
  match measure with
  | .absent => some (none, arguments)
  | .given count => some (some count, arguments)
  | .argument => do
      let (value, arguments) ← arguments.next?
      let count ← whole? value
      pure (some count, arguments)

/-! Laying out a value. -/

/-- A laid out value: its sign and the mark of its base go before any zeros that fill the width. -/
structure Laid where
  isNumber : Bool
  isNegative : Bool
  mark : List Char
  body : List Char

/-- A text, cut to the precision. -/
def Laid.ofText (precision : Option Nat) (cs : List Char) : Laid :=
  ⟨false, false, [], match precision with
    | some count => cs.take count
    | none => cs⟩

/-- Letters in upper case, or as they are. -/
def withCase (upper : Bool) (cs : List Char) : List Char :=
  if upper then cs.map Char.toUpper else cs

/-- A whole number in a base, with at least so many digits. -/
def Laid.ofWhole (base : Nat) (mark : List Char) (upper : Bool) (precision : Option Nat) (n : Int)
    : Laid :=
  let digits := Nat.toDigits base n.natAbs
  let zeros := List.replicate (precision.getD 0 - digits.length) '0'
  ⟨true, n < 0, withCase upper mark, zeros ++ withCase upper digits⟩

/-- The whole part of a number. -/
def truncated? : Json → Option Int
  | .number x =>
      match Double.ofFloat x with
      | .finite negative mantissa exponent =>
          let size : Int := mantissa * 2 ^ exponent.toNat / 2 ^ (-exponent).toNat
          some (if negative then -size else size)
      | _ => none
  | value => whole? value

def real? : Json → Option Float
  | .number x => some x
  | value => (whole? value).bind ofInteger?

/-- A text with a point behind its first digits, where it has none. -/
def withPoint (cs : List Char) : List Char :=
  if cs.contains '.' then cs
  else cs.takeWhile Char.isDigit ++ '.' :: cs.dropWhile Char.isDigit

/-- The size of a finite double by the lower case of its letter. -/
def sizeChars (letter : Char) (marked : Bool) (precision mantissa : Nat) (exponent : Int)
    : List Char :=
  let pointed := fun cs => if marked then withPoint cs else cs
  if letter = 'e' then pointed (exponentialChars precision mantissa exponent)
  else if letter = 'f' then pointed (fixedChars precision mantissa exponent)
  else generalChars marked precision mantissa exponent

/-- A double, with six places unless a precision is given. -/
def Laid.ofReal (letter : Char) (marked : Bool) (precision : Option Nat) (x : Float) : Laid :=
  let body :=
    match Double.ofFloat x with
    | .nan => ['n', 'a', 'n']
    | .infinite _ => ['i', 'n', 'f']
    | .finite _ mantissa exponent =>
        sizeChars letter.toLower marked (precision.getD 6) mantissa exponent
  ⟨true, (Double.ofFloat x).isNegative, [], withCase letter.isUpper body⟩

/-- The one character that a value stands for. -/
def character? : Json → Option Char
  | .text s =>
      match s.toList with
      | [c] => some c
      | _ => none
  | value => do
      let code ← whole? value
      if h : 0 ≤ code ∧ code.toNat.isValidChar then some (Char.ofNatAux code.toNat h.2) else none

/-- A value laid out by the letter of its place. -/
def lay? (letter : Char) (marked : Bool) (precision : Option Nat) (value : Json) : Option Laid :=
  let based := fun (base : Nat) (mark : List Char) (upper : Bool) =>
    (whole? value).map (.ofWhole base (if marked then mark else []) upper precision)
  match letter with
  | 's' => some (.ofText precision (plainText value).toList)
  | 'r' => some (.ofText precision (literalChars value))
  | 'a' => some (.ofText precision (Text.asciiOnly (literalChars value)))
  | 'd' | 'i' | 'u' => (truncated? value).map (.ofWhole 10 [] false precision)
  | 'o' => based 8 ['0', 'o'] false
  | 'x' => based 16 ['0', 'x'] false
  | 'X' => based 16 ['0', 'x'] true
  | 'e' | 'E' | 'f' | 'F' | 'g' | 'G' => (real? value).map (.ofReal letter marked precision)
  | 'c' => (character? value).map fun c => .ofText none [c]
  | _ => none

/-- The sign of a number. -/
def Laid.sign (laid : Laid) (flags : Flags) : List Char :=
  if !laid.isNumber then []
  else if laid.isNegative then ['-']
  else if flags.plus then ['+']
  else if flags.blank then [' ']
  else []

/-- A laid out value in at least the given width. -/
def Laid.fill (laid : Laid) (flags : Flags) (width : Nat) : List Char :=
  let head := laid.sign flags ++ laid.mark
  let missing := width - (head.length + laid.body.length)
  if flags.left then head ++ laid.body ++ List.replicate missing ' '
  else if flags.zeros && laid.isNumber then head ++ List.replicate missing '0' ++ laid.body
  else List.replicate missing ' ' ++ head ++ laid.body

/-- The text of a place, and the arguments without what it took. A negative width asks for
the left side; a negative precision is zero.
-/
def fillPlace? (place : Place) (arguments : Arguments) : Option (List Char × Arguments) := do
  let arguments ←
    match place.key with
    | none => some arguments
    | some key => arguments.select? key
  let (width, arguments) ← place.width.resolve? arguments
  let (precision, arguments) ← place.precision.resolve? arguments
  let (value, arguments) ← arguments.next?
  let laid ← lay? place.letter place.flags.marked (precision.map Int.toNat) value
  let width := width.getD 0
  let flags := { place.flags with left := place.flags.left || width < 0 }
  pure (laid.fill flags width.natAbs, arguments)

/-- The text of pieces; every value of a row has to be taken. -/
def fillPieces? : List Piece → Arguments → Option (List Char)
  | [], arguments => if arguments.isSpent then some [] else none
  | .literal c :: rest, arguments => (fillPieces? rest arguments).map (c :: ·)
  | .place place :: rest, arguments => do
      let (text, arguments) ← fillPlace? place arguments
      let others ← fillPieces? rest arguments
      pure (text ++ others)

/-- The text of a template with its arguments. Without arguments it stands for itself. -/
def fill? (template : String) (arguments : List Json) : Option String :=
  if arguments.isEmpty then some template
  else do
    let pieces ← pieces? template
    let text ← fillPieces? pieces (.ofList arguments)
    pure (String.ofList text)

end Wavetable.Journal.Template
