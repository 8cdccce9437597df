/-!
Lines of a text. Every line boundary of Unicode ends a line, a carriage return directly before
a line feed counts as one boundary with it, and a boundary at the very end opens no further line.
-/

namespace Wavetable.Text

def isLineEnd (c : Char) : Bool :=
  c = '\n' || c = '\r' || c = '\x0b' || c = '\x0c' || c = '\x1c' || c = '\x1d' || c = '\x1e' ||
    c = '\u0085' || c = '\u2028' || c = '\u2029'

/-- The lines of a text whose current line has already read the given characters, newest first. -/
def linesFrom (current : List Char) : List Char → List (List Char)
  | [] => if current.isEmpty then [] else [current.reverse]
  | '\r' :: '\n' :: rest => current.reverse :: linesFrom [] rest
  | c :: rest =>
      if isLineEnd c then current.reverse :: linesFrom [] rest
      else linesFrom (c :: current) rest

/-- The lines of a text, without the characters that end them. -/
def lines (s : String) : List String :=
  (linesFrom [] s.toList).map String.ofList

end Wavetable.Text
