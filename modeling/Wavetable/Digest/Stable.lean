import Wavetable.Digest.Blake2b
import Wavetable.Json.Writer
import Wavetable.Text.Quoted

/-!
Stable digests of structured data. A value is written in its canonical text, so the digest does
not depend on the order of members, and the bytes of that text are digested.
-/

namespace Wavetable.Digest

-- The powers of the core library, whichever other instance is in scope.
attribute [local instance (1100)] instPowNat

/-- The reason why no digest is made. -/
inductive DigestError
  | lengthOutOfRange
  | lengthTooLarge (beyondLong : Bool)
  deriving DecidableEq, Repr

/-- The wording of a refused length. -/
def DigestError.message : DigestError → String
  | .lengthOutOfRange => "digest_size must be between 1 and 64 bytes"
  | .lengthTooLarge _ => "digest_size is too large"

def hexText (bytes : List UInt8) : String :=
  String.ofList (bytes.flatMap fun byte => Text.hexDigits 2 byte.toNat)

/-- The usual length of a digest in bytes. -/
def defaultLength : Int := 20

/-- The digest of the canonical text of a value. -/
def stableBytes (length : Nat) (value : Json) : List UInt8 :=
  Blake2b.digest length value.canonical.toUTF8.toList

/-- The stable digest in hexadecimal, for the lengths from one to sixty-four bytes. -/
def stable (value : Json) (length : Int) : Except DigestError String :=
  if 1 ≤ length ∧ length ≤ 64 then .ok (hexText (stableBytes length.toNat value))
  else if length < -2 ^ (63 : Nat) ∨ 2 ^ (63 : Nat) ≤ length then .error (.lengthTooLarge true)
  else if length < -2 ^ (31 : Nat) ∨ 2 ^ (31 : Nat) ≤ length then .error (.lengthTooLarge false)
  else .error .lengthOutOfRange

end Wavetable.Digest
