import Mathlib.Data.List.DropRight
import Wavetable.Text.Blank

/-!
Trimmed texts. Trimming a second time changes nothing, and only a text of blanks is trimmed to a
text of blanks.
-/

namespace Wavetable.Text

/-- A text that has no blanks at its ends and does not consist of blanks. -/
structure IsLabel (s : String) : Prop where
  trimmed : trim s = s
  visible : isBlankText s = false

/-- Blanks are dropped at the start and then at the end. -/
theorem trimChars_eq (cs : List Char)
    : trimChars cs = (cs.dropWhile isBlank).rdropWhile isBlank := rfl

/-- What dropping blanks at the end leaves starts as the whole does. -/
theorem dropWhile_rdropWhile {cs : List Char} (starts : cs.dropWhile isBlank = cs)
    : (cs.rdropWhile isBlank).dropWhile isBlank = cs.rdropWhile isBlank := by
  have before := List.rdropWhile_prefix isBlank cs
  rw [List.dropWhile_eq_self_iff] at starts ⊢
  intro nonempty
  rw [before.getElem nonempty]
  exact starts (nonempty.trans_le before.length_le)

theorem trimChars_trimChars (cs : List Char) : trimChars (trimChars cs) = trimChars cs := by
  have starts := dropWhile_rdropWhile (List.dropWhile_idempotent isBlank cs)
  rw [trimChars_eq (trimChars cs), trimChars_eq, starts, List.rdropWhile_idempotent]

theorem all_dropWhile (cs : List Char)
    : (cs.dropWhile isBlank).all isBlank = cs.all isBlank := by
  have kept : (cs.dropWhile isBlank).any (fun c => !isBlank c) = !cs.all isBlank :=
    List.any_dropWhile
  rw [List.all_eq_not_any_not, kept, Bool.not_not]

/-- A trimmed text has a visible character if the whole has one. -/
theorem all_trimChars (cs : List Char) : (trimChars cs).all isBlank = cs.all isBlank := by
  rw [trimChars, List.all_reverse, all_dropWhile, List.all_reverse, all_dropWhile]

theorem isLabel_trim {s : String} (visible : isBlankText s = false) : IsLabel (trim s) where
  trimmed := by simp [trim, trimChars_trimChars]
  visible := by simpa only [isBlankText, trim, String.toList_ofList, all_trimChars] using visible

/-- What is left of a text by trimming it is a label, unless nothing is left. -/
theorem isLabel_ofList_trimChars {cs : List Char} (some : trimChars cs ≠ [])
    : IsLabel (String.ofList (trimChars cs)) where
  trimmed := by simp [trim, trimChars_trimChars]
  visible := by
    refine Bool.eq_false_iff.mpr fun blank => some ?_
    rw [isBlankText, String.toList_ofList, all_trimChars] at blank
    have nothing : cs.dropWhile isBlank = [] :=
      List.dropWhile_eq_nil_iff.mpr (List.all_eq_true.mp blank)
    simp [trimChars, nothing]

section
variable {s : String}

theorem IsLabel.trimChars_toList (label : IsLabel s) : trimChars s.toList = s.toList := by
  have trimmed := congrArg String.toList label.trimmed
  rwa [trim, String.toList_ofList] at trimmed

theorem IsLabel.ne_empty (label : IsLabel s) : s ≠ "" := by
  rintro rfl
  exact absurd label.visible (by decide)

/-- A label starts with no blank, since none is dropped there. -/
theorem IsLabel.head (label : IsLabel s) : ∀ c ∈ s.toList.head?, isBlank c = false := by
  intro c first
  have starts : (trimChars s.toList).dropWhile isBlank = trimChars s.toList :=
    dropWhile_rdropWhile (List.dropWhile_idempotent isBlank s.toList)
  rw [label.trimChars_toList] at starts
  cases written : s.toList with
  | nil => simp [written] at first
  | cons d rest =>
      obtain rfl : d = c := by simpa [written] using first
      rw [written, List.dropWhile_eq_self_iff] at starts
      exact Bool.eq_false_iff.mpr (starts (Nat.succ_pos _))

/-- A label ends with no blank, since its text backwards starts with none. -/
theorem IsLabel.last (label : IsLabel s) : ∀ c ∈ s.toList.getLast?, isBlank c = false := by
  intro c final
  have ends : s.toList.rdropWhile isBlank = s.toList := by
    have again := List.rdropWhile_idempotent isBlank (s.toList.dropWhile isBlank)
    rwa [← trimChars_eq, label.trimChars_toList] at again
  have nonempty : s.toList ≠ [] := by
    rintro nothing
    simp [nothing] at final
  have last := List.rdropWhile_eq_self_iff.mp ends nonempty
  rw [List.getLast?_eq_some_getLast nonempty, Option.mem_some_iff] at final
  exact final ▸ Bool.eq_false_iff.mpr last

end

end Wavetable.Text
