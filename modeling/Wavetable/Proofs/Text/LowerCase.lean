import Mathlib.Data.List.DropRight
import Wavetable.Text.LowerCase

/-!
Lower case of parts of texts. Only a capital sigma looks at the characters around it, so a part is
lowered within a text as it is alone exactly where its capital sigmas end words in both or in
neither. The case of ASCII letters has no influence on the lower case of any text.
-/

namespace Wavetable.Text

-----------------------------------------------------------------------------------------
-- A part of a text
-----------------------------------------------------------------------------------------

/-- A capital sigma between these characters ends a word. Those before it stand nearest first. -/
def EndsWord (before after : List Char) : Prop :=
  nearestIsCased before = true ∧ nearestIsCased after = false

/-- The capital sigmas of a text end words between some characters exactly where they do so
between others.
-/
def SameWordEnds (before after before' after' cs : List Char) : Prop :=
  ∀ left right, cs = left ++ 'Σ' :: right →
    (EndsWord (left.reverse ++ before) (right ++ after)
      ↔ EndsWord (left.reverse ++ before') (right ++ after'))

/-- The capital sigmas of a part end words in the whole text exactly where they do so in the part
alone. Characters before it stand nearest first.
-/
def KeepsWordEnds (before after part : List Char) : Prop :=
  SameWordEnds before after [] [] part

/-- Lower case of a part of a text, with the characters before it, nearest first, and after it. -/
def lowerWithin (before after : List Char) : List Char → List Char
  | [] => []
  | c :: rest => lowerAt before (rest ++ after) c ++ lowerWithin (c :: before) after rest

section
variable {before after before' after' : List Char} {c : Char} {cs rest part : List Char}

/-- Nothing stands behind the end of a text. -/
theorem lowerFrom_eq_lowerWithin : lowerFrom before cs = lowerWithin before [] cs := by
  induction cs generalizing before with
  | nil => rfl
  | cons c rest ih => rw [lowerFrom, lowerWithin, ih, List.append_nil]

/-- A text is lowered part by part, each with the other ones around it, by induction on the
first.
-/
theorem lowerFrom_append
    : lowerFrom before (cs ++ rest)
      = lowerWithin before rest cs ++ lowerFrom (cs.reverse ++ before) rest := by
  induction cs generalizing before with
  | nil => rfl
  | cons c cs ih => simp [lowerFrom, lowerWithin, ih]

/-- A character has as many lower-case characters wherever it stands. -/
theorem length_lowerAt
    : (lowerAt before after c).length = (lowerAt before' after' c).length := by
  unfold lowerAt
  split
  · split <;> split <;> rfl
  · rfl

/-- Only a capital sigma is lowered by what stands around it. -/
theorem lowerAt_eq_iff
    : lowerAt before after c = lowerAt before' after' c
      ↔ (c = 'Σ' → (EndsWord before after ↔ EndsWord before' after')) := by
  by_cases sigma : c = 'Σ'
  · simp only [lowerAt, EndsWord, sigma, if_true, forall_const]
    cases nearestIsCased before <;> cases nearestIsCased after <;>
      cases nearestIsCased before' <;> cases nearestIsCased after' <;> decide
  · simp [lowerAt, sigma]

theorem sameWordEnds_cons
    : SameWordEnds before after before' after' (c :: cs)
      ↔ (c = 'Σ' → (EndsWord before (cs ++ after) ↔ EndsWord before' (cs ++ after')))
        ∧ SameWordEnds (c :: before) after (c :: before') after' cs := by
  constructor
  · intro same
    constructor
    · rintro rfl
      exact same [] cs rfl
    · rintro left right rfl
      simpa using same (c :: left) right rfl
  · rintro ⟨first, later⟩ left right split
    rcases List.cons_eq_append_iff.mp split with ⟨rfl, here⟩ | ⟨left, rfl, there⟩
    · obtain ⟨rfl, rfl⟩ := List.cons.inj here
      exact first rfl
    · simpa using later left right there

/-- A part is lowered alike between some characters and between others exactly where its capital
sigmas end words alike, by induction on the part.
-/
theorem lowerWithin_eq_iff
    : lowerWithin before after cs = lowerWithin before' after' cs
      ↔ SameWordEnds before after before' after' cs := by
  induction cs generalizing before before' with
  | nil => simp [lowerWithin, SameWordEnds]
  | cons c cs ih =>
      rw [sameWordEnds_cons, ← ih, ← lowerAt_eq_iff, lowerWithin, lowerWithin]
      constructor
      · exact fun same => List.append_inj same length_lowerAt
      · rintro ⟨first, later⟩
        rw [first, later]

/-- In the lower case of a text stands that of a part which keeps its word ends. -/
theorem lowerFrom_infix (kept : KeepsWordEnds before.reverse after part)
    : lowerFrom [] part <:+: lowerFrom [] (before ++ part ++ after) := by
  have alone : lowerFrom [] part = lowerWithin before.reverse after part :=
    lowerFrom_eq_lowerWithin.trans (lowerWithin_eq_iff.mpr kept).symm
  rw [List.append_assoc, lowerFrom_append, lowerFrom_append, List.append_nil, alone,
    ← List.append_assoc]
  exact List.infix_append _ _ _

end

-----------------------------------------------------------------------------------------
-- Capital sigmas inside of a part
-----------------------------------------------------------------------------------------

/-- On both sides of each capital sigma of a part stands, within the part, a character that is not
skipped when looking for the letters around it.
-/
def SigmasInside (part : List Char) : Prop :=
  ∀ left right, part = left ++ 'Σ' :: right →
    (∃ c ∈ left, caseIgnorableRanges.has c = false)
    ∧ ∃ c ∈ right, caseIgnorableRanges.has c = false

/-- The nearest character that is not skipped is found before what stands farther away. -/
theorem nearestIsCased_append {near far : List Char}
    (found : ∃ c ∈ near, caseIgnorableRanges.has c = false)
    : nearestIsCased (near ++ far) = nearestIsCased near := by
  obtain ⟨c, member, unskipped⟩ := found
  have some : near.dropWhile caseIgnorableRanges.has ≠ [] := by
    intro nothing
    have skipped := List.dropWhile_eq_nil_iff.mp nothing c member
    exact absurd (unskipped.symm.trans skipped) Bool.false_ne_true
  rw [nearestIsCased, nearestIsCased, List.dropWhile_append, if_neg (by simpa using some)]
  cases start : near.dropWhile caseIgnorableRanges.has with
  | nil => exact absurd start some
  | cons first later => rfl

/-- What stands around a part is not looked at where all of its capital sigmas are inside. -/
theorem SigmasInside.keepsWordEnds {before after part : List Char} (inside : SigmasInside part)
    : KeepsWordEnds before after part := by
  intro left right split
  obtain ⟨⟨c, earlier, unskipped⟩, found⟩ := inside left right split
  have found' : ∃ c ∈ left.reverse, caseIgnorableRanges.has c = false :=
    ⟨c, List.mem_reverse.mpr earlier, unskipped⟩
  rw [EndsWord, EndsWord, nearestIsCased_append found', nearestIsCased_append found,
    nearestIsCased_append found', nearestIsCased_append found]

/-- A text without a capital sigma has none at its ends. -/
theorem sigmasInside_of_not_mem {part : List Char} (none : 'Σ' ∉ part) : SigmasInside part := by
  rintro left right rfl
  exact absurd (List.mem_append_right _ List.mem_cons_self) none

-----------------------------------------------------------------------------------------
-- The case of ASCII letters
-----------------------------------------------------------------------------------------

/-- Two texts differ in the case of ASCII letters at most. -/
def SameExceptCase (s t : String) : Prop :=
  s.toList.map Char.toLower = t.toList.map Char.toLower

/-- The properties of a character on which the lower case of a text depends. -/
structure LoweredAlike (c d : Char) : Prop where
  lowered : lowerChar c = lowerChar d
  skipped : caseIgnorableRanges.has c = caseIgnorableRanges.has d
  cased : casedRanges.has c = casedRanges.has d
  sigma : c = 'Σ' ↔ d = 'Σ'
  dotted : c = 'İ' ↔ d = 'İ'

/-- The letters from A to Z and those from a to z, compared one by one. -/
theorem loweredAlike_letter {n : Nat} (letter : n < 26)
    : (Char.ofNat (n + 65)).toLower = Char.ofNat (n + 97)
      ∧ LoweredAlike (Char.ofNat (n + 97)) (Char.ofNat (n + 65)) := by
  have compared : ∀ n < 26,
      let capital := Char.ofNat (n + 65)
      let small := Char.ofNat (n + 97)
      capital.toLower = small
      ∧ lowerChar small = lowerChar capital
      ∧ caseIgnorableRanges.has small = caseIgnorableRanges.has capital
      ∧ casedRanges.has small = casedRanges.has capital
      ∧ (small = 'Σ' ↔ capital = 'Σ') ∧ (small = 'İ' ↔ capital = 'İ') := by
    decide +kernel
  obtain ⟨small, lowered, skipped, cased, sigma, dotted⟩ := compared n letter
  exact ⟨small, lowered, skipped, cased, sigma, dotted⟩

theorem loweredAlike_toLower (c : Char) : LoweredAlike c.toLower c := by
  by_cases capital : 65 ≤ c.toNat ∧ c.toNat ≤ 90
  · obtain ⟨small, alike⟩ := loweredAlike_letter (n := c.toNat - 65) (by omega)
    have same : Char.ofNat (c.toNat - 65 + 65) = c := by
      rw [Nat.sub_add_cancel capital.1, Char.ofNat_toNat]
    rw [same] at small alike
    exact small ▸ alike
  · have unchanged : c.toLower = c := by
      refine dif_neg fun range => capital ?_
      exact range
    rw [unchanged]
    exact ⟨rfl, rfl, rfl, .rfl, .rfl⟩

theorem nearestIsCased_cons (c : Char) (rest : List Char)
    : nearestIsCased (c :: rest)
      = if caseIgnorableRanges.has c then nearestIsCased rest else casedRanges.has c := by
  rw [nearestIsCased, List.dropWhile_cons]
  cases caseIgnorableRanges.has c <;> rfl

theorem nearestIsCased_map_toLower (cs : List Char)
    : nearestIsCased (cs.map Char.toLower) = nearestIsCased cs := by
  induction cs with
  | nil => rfl
  | cons c rest ih =>
      have alike := loweredAlike_toLower c
      rw [List.map_cons, nearestIsCased_cons, nearestIsCased_cons, alike.skipped, alike.cased, ih]

/-- The case of ASCII letters has no influence on lower case, by induction on the text. -/
theorem lowerFrom_map_toLower (before cs : List Char)
    : lowerFrom (before.map Char.toLower) (cs.map Char.toLower) = lowerFrom before cs := by
  induction cs generalizing before with
  | nil => rfl
  | cons c rest ih =>
      have alike := loweredAlike_toLower c
      have here : lowerAt (before.map Char.toLower) (rest.map Char.toLower) c.toLower
          = lowerAt before rest c := by
        simp only [lowerAt, alike.sigma, alike.dotted, alike.lowered, nearestIsCased_map_toLower]
      rw [List.map_cons, lowerFrom, lowerFrom, here, ← List.map_cons, ih]

theorem SameExceptCase.lower_eq {s t : String} (same : SameExceptCase s t) : lower s = lower t := by
  rw [lower, lower, ← lowerFrom_map_toLower [] s.toList, ← lowerFrom_map_toLower [] t.toList, same]

end Wavetable.Text
