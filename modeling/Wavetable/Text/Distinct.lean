/-!
Sorted names without repetition, the form in which sets of names are listed. A name is listed
exactly if it was given.
-/

namespace Wavetable.Text

/-- A name put into its place of a sorted list that does not repeat names. -/
def insertName (name : String) : List String → List String
  | [] => [name]
  | head :: rest =>
      if name = head then head :: rest
      else if name < head then name :: head :: rest
      else head :: insertName name rest

/-- The names in order of their code points, each once. -/
def distinct (names : List String) : List String :=
  names.foldr insertName []

theorem mem_insertName {name other : String} {names : List String}
    : other ∈ insertName name names ↔ other = name ∨ other ∈ names := by
  induction names with
  | nil => simp [insertName]
  | cons head rest ih =>
      unfold insertName
      split
      · next h => subst h; simp
      · split
        · simp
        · simp only [List.mem_cons, ih]
          constructor <;> (rintro (h | h | h) <;> simp [h])

theorem mem_distinct {name : String} {names : List String}
    : name ∈ distinct names ↔ name ∈ names := by
  induction names with
  | nil => simp [distinct]
  | cons head rest ih =>
      simp only [distinct, List.foldr_cons, mem_insertName, List.mem_cons]
      simp only [distinct] at ih
      rw [ih]

end Wavetable.Text
