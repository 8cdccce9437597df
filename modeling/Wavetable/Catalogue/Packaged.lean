import Wavetable.Text.File

/-!
The formulas that come with the library, one or a category a line.
-/

namespace Wavetable.Catalogue

/-- The lines of the formulas for single frames. -/
def packagedSingleLines : List String :=
  ["[x][--- Basic ---]",
   "[sin(2*pi*x)][Sine]",
   "[2*w - 1][Saw Up]",
   "[-x][Saw Down]",
   "[sign(sin(2*pi*x))][Square]",
   "[1 - 4*abs(w - 0.5)][Triangle]",
   "[(x >= 0) - (x < 0)][Square (Logic)]",
   "",
   "[x][--- Harmonics ---]",
   "[(sin(2*pi*x) + sin(6*pi*x)/3 + sin(10*pi*x)/5)][Odd Harmonics]",
   "[sin(2*pi*x) + 0.5*sin(4*pi*x)][Octave Stack]",
   "[sin(2*pi*x)^3][Cubed Sine]",
   "",
   "[x][--- Shaping ---]",
   "[tanh(4*in)][Soft Clip Input]",
   "[in * (1 - w)][Fade Out]",
   "[sign(in) * sqrt(abs(in))][Root Curve]",
   "[rint(in*4)/4][Bitcrush 2-bit]",
   "[rand][Noise]"]

/-- The lines of the formulas for whole tables. -/
def packagedMultiLines : List String :=
  ["[x][--- Morphs ---]",
   "[sin(2*pi*x) * (1 - z) + x * z][Sine to Saw]",
   "[sin(2*pi*x*(1 + 7*z))][Harmonic Sweep]",
   "[sign(sin(2*pi*x)) * z + sin(2*pi*x) * (1 - z)][Sine to Square]",
   "",
   "[x][--- Phase ---]",
   "[sin(2*pi*(w + z))][Phase Rotate]",
   "[sin(2*pi*w*(1 + y/32))][Frame Stretch]",
   "[in * cos(pi*z)][Fold Over Table]"]

/-- The file of lines that each end with a line break. -/
def fileOfLines (lines : List String) : Text.File :=
  .text (String.join (lines.map (· ++ "\n")))

end Wavetable.Catalogue
