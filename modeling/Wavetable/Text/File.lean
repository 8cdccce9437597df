/-!
What stands at a path: nothing, a directory, a text, or bytes that are no text.
-/

namespace Wavetable.Text

/-- What stands at a path. -/
inductive File
  | missing
  | directory
  | text (content : String)
  | garbled (bytes : List UInt8)
  deriving Repr, DecidableEq

/-- Bytes are a text if they are valid UTF-8. -/
def File.ofBytes (bytes : List UInt8) : File :=
  match String.fromUTF8? (ByteArray.mk bytes.toArray) with
  | some content => .text content
  | none => .garbled bytes

end Wavetable.Text
