import Wavetable.Settings.Numeric
import Wavetable.Settings.Path
import Wavetable.Text.Integer

/-!
The settings of the engine and of the catalogue. They are built from named values, each of
which is checked; what is not named has its usual value.
-/

namespace Wavetable

open Settings (Numeric)

-- The powers of the core library, whichever other instance is in scope.
attribute [local instance (1100)] instPowNat

/-- The settings. The two paths are kept as they are given. -/
structure Settings where
  randomSeed : Int
  clampLow : Numeric
  clampHigh : Numeric
  tolerance : Numeric
  frameCount : Numeric
  libraryPath : Json
  statePath : Json

namespace Settings

/-- The usual settings: seed 42, samples from minus one to one, and tables of 256 frames. -/
def default : Settings where
  randomSeed := 42
  clampLow := .real (-1.0)
  clampHigh := .real 1.0
  tolerance := .real 1e-6
  frameCount := .whole 256
  libraryPath := .null
  statePath := .null

inductive Error
  | unknownName (name : String)
  | unusableValue (name : String)
  | unusableContent
  | nestedTooDeep (inList : Bool)
  | pairLength (index length : Nat)
  | malformedSeed (text : String)
  | seedTooLong (digits : Nat)
  | seedNotANumber
  | seedInfinite
  | boundTooLarge
  | boundNotFinite
  | boundsReversed
  | negativeTolerance
  | noFrames
  deriving Repr, DecidableEq

def Error.message : Error → String
  | .unknownName name => "unknown name: " ++ name
  | .unusableValue name => "unusable value: " ++ name
  | .unusableContent => "unusable content"
  | .nestedTooDeep inList =>
      "maximum recursion depth exceeded while decoding a JSON "
        ++ (if inList then "array" else "object") ++ " from a unicode string"
  | .pairLength index length =>
      "dictionary update sequence element #" ++ toString index ++ " has length "
        ++ toString length ++ "; 2 is required"
  | .malformedSeed text =>
      "invalid literal for int() with base 10: "
        ++ String.ofList ((Text.quote text).toList.take 200)
  | .seedTooLong digits =>
      "Exceeds the limit (4300 digits) for integer string conversion: value has "
        ++ toString digits ++ " digits; use sys.set_int_max_str_digits() to increase the limit"
  | .seedNotANumber => "cannot convert float NaN to integer"
  | .seedInfinite => "cannot convert float infinity to integer"
  | .boundTooLarge => "int too large to convert to float"
  | .boundNotFinite => "clamp bounds must be finite"
  | .boundsReversed => "clamp_min must be <= clamp_max"
  | .negativeTolerance => "eq_tolerance must be non-negative"
  | .noFrames => "default_frame_count must be > 0"

def names : List String :=
  ["rand_seed", "clamp_min", "clamp_max", "eq_tolerance", "default_frame_count", "library_path",
   "user_formulas_path"]

def seedOfText (text : String) : Except Error Int :=
  match Text.integer text with
  | .ok n => .ok n
  | .error .malformed => .error (.malformedSeed text)
  | .error (.tooManyDigits digits) => .error (.seedTooLong digits)

/-- The seed that a double gives: its whole part toward zero. -/
def seedOfFloat (x : Float) : Except Error Int :=
  match Number.Double.ofFloat x with
  | .nan => .error .seedNotANumber
  | .infinite _ => .error .seedInfinite
  | .finite negative mantissa exponent =>
      let size : Int := mantissa * 2 ^ exponent.toNat / 2 ^ (-exponent).toNat
      .ok (if negative then -size else size)

/-- The seed that a value gives. -/
def seedOf : Json → Except Error Int
  | .bool value => .ok (if value then 1 else 0)
  | .integer n => .ok n
  | .number x => seedOfFloat x
  | .text s => seedOfText s
  | _ => .error (.unusableValue "rand_seed")

/-- A number among named values, or its usual value. -/
def numericOf (values : Json.Members) (name : String) (usual : Numeric)
    : Except Error Numeric :=
  match Json.Members.get? values name with
  | none => .ok usual
  | some value =>
      match Numeric.ofJson? value with
      | some n => .ok n
      | none => .error (.unusableValue name)

/-- A bound is finite; a whole number beyond the doubles is no bound at all. -/
def checkBound (bound : Numeric) : Except Error Unit :=
  if bound.toFloat.isFinite then .ok ()
  else if bound.whole?.isSome then .error .boundTooLarge
  else .error .boundNotFinite

/-- The settings that named values make. The first of several faults counts: an unknown name, then
the seed, the bounds, their order, the tolerance and the number of frames.
-/
def ofMembers (values : Json.Members) : Except Error Settings := do
  match values.find? (fun member => !names.contains member.1) with
  | some member => throw (.unknownName member.1)
  | none => pure ()
  let seed ← seedOf ((Json.Members.get? values "rand_seed").getD (.integer default.randomSeed))
  let low ← numericOf values "clamp_min" default.clampLow
  checkBound low
  let high ← numericOf values "clamp_max" default.clampHigh
  checkBound high
  if low.above high then throw .boundsReversed
  let tolerance ← numericOf values "eq_tolerance" default.tolerance
  if tolerance.isNegative then throw .negativeTolerance
  let frames ← numericOf values "default_frame_count" default.frameCount
  if frames.isAtMostZero then throw .noFrames
  pure
    { randomSeed := seed
      clampLow := low
      clampHigh := high
      tolerance := tolerance
      frameCount := frames
      libraryPath := (Json.Members.get? values "library_path").getD .null
      statePath := (Json.Members.get? values "user_formulas_path").getD .null }

/-- The path that a value gives, if any; one that is null, empty, zero or false gives none. -/
def pathOf (name : String) (value : Json) : Except Error (Option String) :=
  if value.isVoid then .ok none
  else
    match value with
    | .text s => .ok (some (displayPath s))
    | _ => .error (.unusableValue name)

/-- The directory of the bundled formulas, if one is set. -/
def libraryDir (settings : Settings) : Except Error (Option String) :=
  pathOf "library_path" settings.libraryPath

/-- The file of the user's formulas, if one is set. -/
def stateFile (settings : Settings) : Except Error (Option String) :=
  pathOf "user_formulas_path" settings.statePath

/-- The settings are equal to the usual ones. -/
def isDefault (settings : Settings) : Bool :=
  let isNull : Json → Bool
    | .null => true
    | _ => false
  settings.randomSeed == default.randomSeed && settings.clampLow.same default.clampLow
    && settings.clampHigh.same default.clampHigh && settings.tolerance.same default.tolerance
    && settings.frameCount.same default.frameCount && isNull settings.libraryPath
    && isNull settings.statePath

end Settings

end Wavetable
