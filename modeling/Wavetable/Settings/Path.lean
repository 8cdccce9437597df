/-!
File paths as they are shown: without repeated separators, without parts that only name the
directory itself, and with a single dot for the empty path.
-/

namespace Wavetable.Settings

/-- The parts of a path between its separators, newest first, with the current part. -/
def pathParts (current : List Char) : List Char → List (List Char)
  | [] => [current.reverse]
  | '/' :: rest => current.reverse :: pathParts [] rest
  | c :: rest => pathParts (c :: current) rest

/-- The root of a path: exactly two separators are kept, any other number of them is one. -/
def pathRoot : List Char → List Char
  | '/' :: '/' :: '/' :: _ => ['/']
  | '/' :: '/' :: _ => ['/', '/']
  | '/' :: _ => ['/']
  | _ => []

def displayPath (path : String) : String :=
  let cs := path.toList
  let parts := (pathParts [] cs).filter fun part => part ≠ [] ∧ part ≠ ['.']
  let root := pathRoot cs
  if root.isEmpty && parts.isEmpty then "."
  else String.ofList (root ++ (List.intersperse ['/'] parts).flatten)

end Wavetable.Settings
