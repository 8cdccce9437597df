import Mathlib.Data.List.Infix
import Mathlib.Data.List.TakeWhile
import Wavetable.Catalogue.Bundle

/-!
Lines of formulas by their brackets. A line whose expression and name stand in brackets that touch
is read as these two. So is one with a text between the two pairs of brackets, if a closing bracket
touches an opening one elsewhere, and no other line is.
-/

namespace Wavetable.Catalogue

-----------------------------------------------------------------------------------------
-- Texts in brackets
-----------------------------------------------------------------------------------------

section
variable {mark : Char} {before rest cs : List Char}

theorem takeWhile_ne_append (absent : mark ∉ before)
    : (before ++ mark :: rest).takeWhile (· ≠ mark) = before := by
  have other : ∀ c ∈ before, decide (c ≠ mark) = true := fun c member =>
    decide_eq_true fun same => absent (same ▸ member)
  rw [List.takeWhile_append_of_pos other, List.takeWhile_cons_of_neg (by simp), List.append_nil]

theorem dropWhile_ne_append (absent : mark ∉ before)
    : (before ++ mark :: rest).dropWhile (· ≠ mark) = mark :: rest := by
  have other : ∀ c ∈ before, decide (c ≠ mark) = true := fun c member =>
    decide_eq_true fun same => absent (same ▸ member)
  rw [List.dropWhile_append_of_pos other, List.dropWhile_cons_of_neg (by simp)]

/-- What is dropped before a mark has none, and what is left starts with it. -/
theorem exists_of_dropWhile_ne {first : Char} (left : cs.dropWhile (· ≠ mark) = first :: rest)
    : mark ∉ cs.takeWhile (· ≠ mark) ∧ cs = cs.takeWhile (· ≠ mark) ++ mark :: rest := by
  have stopped := List.head?_dropWhile_not (fun c => decide (c ≠ mark)) cs
  rw [left] at stopped
  obtain rfl : first = mark := by simpa using stopped
  refine ⟨fun member => ?_, ?_⟩
  · simpa using List.mem_takeWhile_imp member
  · rw [← left, List.takeWhile_append_dropWhile]

end

theorem nextBracketed?_append {before inside : List Char} (behind : List Char)
    (unopened : '[' ∉ before) (unclosed : ']' ∉ inside)
    : nextBracketed? (before ++ '[' :: (inside ++ ']' :: behind)) = some (inside, behind) := by
  unfold nextBracketed?
  simp only [dropWhile_ne_append unopened, dropWhile_ne_append unclosed,
    takeWhile_ne_append unclosed]

/-- The next text in brackets is the one between the first opening bracket and the first closing one
behind it.
-/
theorem nextBracketed?_eq_some_iff {cs inside behind : List Char}
    : nextBracketed? cs = some (inside, behind)
      ↔ ∃ before, cs = before ++ '[' :: (inside ++ ']' :: behind)
          ∧ '[' ∉ before ∧ ']' ∉ inside := by
  constructor
  · intro found
    unfold nextBracketed? at found
    split at found
    next => contradiction
    next opened =>
      obtain ⟨unopened, split⟩ := exists_of_dropWhile_ne opened
      split at found
      next => contradiction
      next closed =>
        obtain ⟨unclosed, split'⟩ := exists_of_dropWhile_ne closed
        obtain ⟨rfl, rfl⟩ := Prod.mk.inj (Option.some.inj found)
        exact ⟨_, split' ▸ split, unopened, unclosed⟩
  · rintro ⟨before, rfl, unopened, unclosed⟩
    exact nextBracketed?_append behind unopened unclosed

/-- By the recursion of the search. -/
theorem hasTouchingBrackets_iff {cs : List Char}
    : hasTouchingBrackets cs = true ↔ [']', '['] <:+: cs := by
  fun_induction hasTouchingBrackets cs with
  | case1 rest => simpa using (List.prefix_append [']', '['] rest).isInfix
  | case2 c rest other ih =>
      rw [ih, List.infix_cons_iff, or_iff_right]
      rintro ⟨behind, same⟩
      obtain ⟨rfl, rfl⟩ := List.cons.inj same
      exact other behind rfl rfl
  | case3 => simp

/-- The parts of a line are the first two texts in brackets, of which the first one stands in front,
if brackets touch somewhere.
-/
theorem lineParts?_eq_some_iff {line expression name : List Char}
    : lineParts? line = some (expression, name)
      ↔ [']', '['] <:+: line
        ∧ ∃ between rest,
            line = '[' :: (expression ++ ']' :: (between ++ '[' :: (name ++ ']' :: rest)))
            ∧ ']' ∉ expression ∧ '[' ∉ between ∧ ']' ∉ name := by
  constructor
  · intro found
    unfold lineParts? at found
    split at found
    next behind =>
      split at found
      next touching =>
        simp only [Option.bind_eq_bind, Option.bind_eq_some_iff, Option.pure_def,
          Option.some.injEq, Prod.mk.injEq, Prod.exists, nextBracketed?_eq_some_iff] at found
        obtain ⟨_, _, ⟨front, same, unopened, unclosed⟩, _, rest, second, rfl, rfl⟩ := found
        obtain ⟨between, rfl, unopened', unclosed'⟩ := second
        obtain rfl : front = [] := by
          cases front with
          | nil => rfl
          | cons c front =>
              obtain ⟨rfl, -⟩ := List.cons.inj same
              exact absurd (List.mem_cons_self ..) unopened
        refine ⟨?_, between, rest, same, unclosed, unopened', unclosed'⟩
        exact (hasTouchingBrackets_iff.mp touching).trans (List.suffix_cons ..).isInfix
      next => contradiction
    next => contradiction
  · rintro ⟨touching, between, rest, rfl, unclosed, unopened, unclosed'⟩
    have touching' : hasTouchingBrackets
        (expression ++ ']' :: (between ++ '[' :: (name ++ ']' :: rest))) = true := by
      rcases List.infix_cons_iff.mp touching with ⟨_, same⟩ | inside
      · exact absurd (List.cons.inj same).1 (by decide)
      · exact hasTouchingBrackets_iff.mpr inside
    have first := nextBracketed?_append (between ++ '[' :: (name ++ ']' :: rest))
      List.not_mem_nil unclosed
    have second := nextBracketed?_append rest unopened unclosed'
    rw [List.nil_append] at first
    unfold lineParts?
    simp only [touching', if_true, first, second, Option.bind_eq_bind, Option.bind_some,
      Option.pure_def]

-----------------------------------------------------------------------------------------
-- Lines of formulas
-----------------------------------------------------------------------------------------

/-- A line of a formula: the expression and the name in brackets, one directly behind the other, and
then anything.
-/
def IsFormulaLine (line expression name : String) : Prop :=
  (∃ rest, line = "[" ++ expression ++ "][" ++ name ++ "]" ++ rest)
  ∧ ']' ∉ expression.toList ∧ ']' ∉ name.toList

/-- A line on which a text stands between the first two pairs of brackets, but a closing bracket
touches an opening one somewhere else.
-/
def IsTornLine (line expression name : String) : Prop :=
  (∃ between rest,
    line = "[" ++ expression ++ "]" ++ between ++ "[" ++ name ++ "]" ++ rest
    ∧ between ≠ "" ∧ '[' ∉ between.toList)
  ∧ ']' ∉ expression.toList ∧ ']' ∉ name.toList
  ∧ ∃ before behind, line = before ++ "][" ++ behind

theorem formulaLine_eq_some_iff {line expression name : String}
    : formulaLine line = some (expression, name)
      ↔ lineParts? line.toList = some (expression.toList, name.toList) := by
  simp only [formulaLine, Option.map_eq_some_iff, Prod.exists, Prod.mk.injEq]
  constructor
  · rintro ⟨cs, ds, found, rfl, rfl⟩
    rw [found, String.toList_ofList, String.toList_ofList]
  · intro found
    exact ⟨_, _, found, String.ofList_toList, String.ofList_toList⟩

/-- The brackets of a line, as texts. -/
theorem formulaLine_eq_some_iff_brackets {line expression name : String}
    : formulaLine line = some (expression, name)
      ↔ (∃ before behind, line = before ++ "][" ++ behind)
        ∧ ∃ between rest,
            line = "[" ++ expression ++ "]" ++ between ++ "[" ++ name ++ "]" ++ rest
            ∧ ']' ∉ expression.toList ∧ '[' ∉ between.toList ∧ ']' ∉ name.toList := by
  rw [formulaLine_eq_some_iff, lineParts?_eq_some_iff]
  have touching
      : [']', '['] <:+: line.toList ↔ ∃ before behind, line = before ++ "][" ++ behind := by
    constructor
    · rintro ⟨before, behind, same⟩
      refine ⟨.ofList before, .ofList behind, String.toList_injective ?_⟩
      simp [← same]
    · rintro ⟨before, behind, rfl⟩
      exact ⟨before.toList, behind.toList, by simp⟩
  rw [touching]
  refine and_congr_right fun _ => ⟨?_, ?_⟩
  · rintro ⟨between, rest, same, unclosed, unopened, unclosed'⟩
    refine ⟨.ofList between, .ofList rest, String.toList_injective ?_, unclosed, ?_, unclosed'⟩
    · simp [same]
    · rwa [String.toList_ofList]
  · rintro ⟨between, rest, rfl, unclosed, unopened, unclosed'⟩
    exact ⟨between.toList, rest.toList, by simp, unclosed, unopened, unclosed'⟩

/-- A text is read from a line exactly if the line is one of a formula or torn, by whether anything
stands between the brackets.
-/
theorem formulaLine_eq_some_iff_shape {line expression name : String}
    : formulaLine line = some (expression, name)
      ↔ IsFormulaLine line expression name ∨ IsTornLine line expression name := by
  rw [formulaLine_eq_some_iff_brackets]
  constructor
  · rintro ⟨touching, between, rest, same, unclosed, unopened, unclosed'⟩
    by_cases nothing : between = ""
    · subst nothing
      exact .inl ⟨⟨rest, same.trans (by simp [String.append_assoc])⟩, unclosed, unclosed'⟩
    · exact .inr ⟨⟨between, rest, same, nothing, unopened⟩, unclosed, unclosed', touching⟩
  · rintro (⟨⟨rest, same⟩, unclosed, unclosed'⟩
      | ⟨⟨between, rest, same, -, unopened⟩, unclosed, unclosed', touching⟩)
    · refine ⟨⟨"[" ++ expression, name ++ "]" ++ rest, ?_⟩, "", rest, ?_, unclosed, by simp,
        unclosed'⟩
      · rw [same]
        simp [String.append_assoc]
      · rw [same]
        simp [String.append_assoc]
    · exact ⟨touching, between, rest, same, unclosed, unopened, unclosed'⟩

theorem formulaLine_unique {line expression name expression' name' : String}
    (read : formulaLine line = some (expression, name))
    (read' : formulaLine line = some (expression', name'))
    : expression' = expression ∧ name' = name :=
  Prod.mk.inj (Option.some.inj (read'.symm.trans read))

/-- The text between the brackets of a torn line would have to start with an opening one. -/
theorem IsTornLine.not_isFormulaLine {line expression name expression' name' : String}
    (torn : IsTornLine line expression name)
    : ¬ IsFormulaLine line expression' name' := by
  intro shape
  obtain ⟨rfl, rfl⟩ := formulaLine_unique (formulaLine_eq_some_iff_shape.mpr (.inr torn))
    (formulaLine_eq_some_iff_shape.mpr (.inl shape))
  obtain ⟨⟨rest, same⟩, -⟩ := shape
  obtain ⟨⟨between, rest', same', something, unopened⟩, -⟩ := torn
  have behind := congrArg String.toList (same.symm.trans same')
  simp only [String.toList_append, String.reduceToList, List.append_assoc, List.cons_append,
    List.nil_append, List.cons.injEq, true_and, List.append_cancel_left_eq] at behind
  cases given : between.toList with
  | nil => exact something (String.toList_eq_nil_iff.mp given)
  | cons c cs =>
      rw [given, List.cons_append] at behind
      rw [given, ← (List.cons.inj behind).1] at unopened
      exact unopened (List.mem_cons_self ..)

/-- The expression and the name of a line of a formula are read from it, and such a line has no
other ones. All other lines are refused, except torn ones. None of these is a line of a formula,
and yet their first two texts in brackets are read.
-/
theorem formula_lines_read (line : String)
    : (∀ expression name, IsFormulaLine line expression name →
        formulaLine line = some (expression, name)
        ∧ ∀ expression' name', IsFormulaLine line expression' name' →
            expression' = expression ∧ name' = name)
      ∧ (∀ expression name,
          formulaLine line = some (expression, name)
          ↔ IsFormulaLine line expression name ∨ IsTornLine line expression name)
      ∧ ∀ expression name, IsTornLine line expression name →
          ∀ expression' name', ¬ IsFormulaLine line expression' name' := by
  refine ⟨fun expression name shape => ?_, fun _ _ => formulaLine_eq_some_iff_shape,
    fun _ _ torn _ _ => torn.not_isFormulaLine⟩
  have read := formulaLine_eq_some_iff_shape.mpr (.inl shape)
  refine ⟨read, fun _ _ other => ?_⟩
  exact formulaLine_unique read (formulaLine_eq_some_iff_shape.mpr (.inl other))

/-- A bracket that opens inside of a name is part of it, and brackets behind the name do not
count.
-/
theorem formula_lines_read_nested
    : let line := "[sin(2*pi*x)][Sine [a]] [b][c]"
      IsFormulaLine line "sin(2*pi*x)" "Sine [a"
      ∧ formulaLine line = some ("sin(2*pi*x)", "Sine [a") := by
  intro line
  have shape : IsFormulaLine line "sin(2*pi*x)" "Sine [a" :=
    ⟨⟨"] [b][c]", rfl⟩, by decide, by decide⟩
  exact ⟨shape, ((formula_lines_read line).1 _ _ shape).1⟩

/-- A formula is read from a line with a text between its brackets. -/
theorem formula_read_from_torn_line
    : formulaLine "[a]x[b][c]" = some ("a", "b")
      ∧ ¬ ∃ expression name, IsFormulaLine "[a]x[b][c]" expression name := by
  have torn : IsTornLine "[a]x[b][c]" "a" "b" :=
    ⟨⟨"x", "[c]", rfl, by decide, by decide⟩, by decide, by decide, "[a]x[b", "c]", rfl⟩
  exact ⟨rfl, fun ⟨_, _, shape⟩ => torn.not_isFormulaLine shape⟩

end Wavetable.Catalogue
