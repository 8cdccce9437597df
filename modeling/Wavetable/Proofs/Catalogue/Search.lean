import Wavetable.Catalogue.Query
import Wavetable.Proofs.Catalogue.Undo
import Wavetable.Proofs.Text.LowerCase

/-!
What a search finds. Query and texts are compared in lower case, so an entry with the query in one
of its texts is found unless a capital sigma of the query ends a word in one of the two and not in
the other, and the case of ASCII letters makes no difference.
-/

namespace Wavetable.Catalogue

open Text

/-- The texts of an entry in which a query is looked for. -/
def Entry.texts (entry : Entry) : List String :=
  [entry.name, entry.expression, entry.category]

/-- By induction on the text that is searched. -/
theorem occursIn_iff {part whole : List Char} : occursIn part whole = true ↔ part <:+: whole := by
  induction whole with
  | nil => simp [occursIn]
  | cons c rest ih =>
      rw [occursIn, Bool.or_eq_true, List.isPrefixOf_iff_prefix, ih, List.infix_cons_iff]

section
variable {store : Store} {isMultiFrame : Bool} {entry : Entry} {query text : String}

theorem Entry.holds_iff
    : entry.holds query = true
      ↔ ∃ text ∈ entry.texts, query.toList <:+: (lower text).toList := by
  simp [holds, texts, occursIn_iff, or_assoc]

theorem Store.mem_search_iff
    : entry ∈ store.search query isMultiFrame
      ↔ entry ∈ store.all isMultiFrame
        ∧ ∃ text ∈ entry.texts, (lower query).toList <:+: (lower text).toList := by
  rw [search, List.mem_filter, Entry.holds_iff]

/-- A query that stands in a text stands there in lower case too if its word ends are kept. -/
theorem lower_infix {before after : List Char}
    (stands : text.toList = before ++ query.toList ++ after)
    (kept : KeepsWordEnds before.reverse after query.toList)
    : (lower query).toList <:+: (lower text).toList := by
  rw [lower, lower, String.toList_ofList, String.toList_ofList, stands]
  exact lowerFrom_infix kept

end

/-- A search finds entries of its mode, in their order: those with the query in one of their texts
when both are in lower case. If a query stands in a text as it is, its entry is found wherever each
capital sigma of the query ends a word in the text exactly if it does in the query alone, which is
so in every text if none of these sigmas is first or last among the characters that count for it.
Queries that differ in the case of ASCII letters find the same.
-/
theorem search_finds_what_stands (store : Store) (isMultiFrame : Bool) (query : String)
    : let found := store.search query isMultiFrame
      found.Sublist (store.all isMultiFrame)
      ∧ (∀ entry, entry ∈ found
          ↔ entry ∈ store.all isMultiFrame
            ∧ ∃ text ∈ entry.texts, (lower query).toList <:+: (lower text).toList)
      ∧ (∀ entry ∈ store.all isMultiFrame, ∀ text ∈ entry.texts, ∀ before after,
          text.toList = before ++ query.toList ++ after
          → KeepsWordEnds before.reverse after query.toList ∨ SigmasInside query.toList
          → entry ∈ found)
      ∧ ∀ other, SameExceptCase other query → store.search other isMultiFrame = found := by
  intro found
  refine ⟨List.filter_sublist, fun entry => Store.mem_search_iff, ?_, fun other same => ?_⟩
  · intro entry listed text among before after stands ends
    have kept : KeepsWordEnds before.reverse after query.toList :=
      ends.elim id SigmasInside.keepsWordEnds
    exact Store.mem_search_iff.mpr ⟨listed, text, among, lower_infix stands kept⟩
  · rw [Store.search, same.lower_eq]
    rfl

-----------------------------------------------------------------------------------------
-- A capital sigma at the end of a word and inside of one
-----------------------------------------------------------------------------------------

/-- The only formula of the text `[w][ΑΣ]` for single frames. -/
def lastSigmaKey : BundleKey :=
  ⟨false, "Single-Frame", "w", "ΑΣ"⟩

/-- The only formula of the text `[y][ΜΑΣΑ x]` for whole tables. -/
def innerSigmaKey : BundleKey :=
  ⟨true, "Multi-Frame", "y", "ΜΑΣΑ x"⟩

/-- A catalogue that is opened on these texts. -/
def openedOnSigmas : Session :=
  openedOn ⟨.text "[w][ΑΣ]", .text "[y][ΜΑΣΑ x]", .missing, false, false, 0⟩

theorem openedOnSigmas_store
    : openedOnSigmas.store
      = ⟨[lastSigmaKey.entry openingTime 0], [innerSigmaKey.entry openingTime 0], []⟩ :=
  rfl

/-- A part of a name that begins with a sigma is found inside of the name, where the sigma ends no
word either, and in the other case of its ASCII letter.
-/
theorem search_finds_what_stands_inside
    : let store := openedOnSigmas.store
      let entry := innerSigmaKey.entry openingTime 0
      entry ∈ store.all true
      ∧ entry.name.toList = ['Μ', 'Α'] ++ "ΣΑ x".toList ++ []
      ∧ KeepsWordEnds ['Α', 'Μ'] [] "ΣΑ x".toList
      ∧ entry ∈ store.search "ΣΑ x" true
      ∧ SameExceptCase "ΣΑ X" "ΣΑ x"
      ∧ entry ∈ store.search "ΣΑ X" true := by
  intro store entry
  obtain ⟨-, -, stands, same⟩ := search_finds_what_stands store true "ΣΑ x"
  have listed : entry ∈ store.all true := by
    simp [store, entry, openedOnSigmas_store, Store.all, Store.bundledOf]
  have kept : KeepsWordEnds ['Α', 'Μ'] [] "ΣΑ x".toList := by
    refine lowerWithin_eq_iff.mp ?_
    decide +kernel
  have small : SameExceptCase "ΣΑ X" "ΣΑ x" := by
    unfold SameExceptCase
    decide +kernel
  have place : entry.name.toList = ['Μ', 'Α'] ++ "ΣΑ x".toList ++ [] := by decide +kernel
  have found : entry ∈ store.search "ΣΑ x" true :=
    stands entry listed entry.name (List.mem_cons_self ..) ['Μ', 'Α'] [] place (.inl kept)
  exact ⟨listed, place, kept, found, small, (same _ small).symm ▸ found⟩

/-- The query of one capital sigma stands at the end of a name, where it ends a word, which it does
not alone: the formula of that name is listed and not found.
-/
theorem final_sigma_not_found
    : let store := openedOnSigmas.store
      let entry := lastSigmaKey.entry openingTime 0
      entry ∈ store.all false
      ∧ entry.name.toList = ['Α'] ++ "Σ".toList ++ []
      ∧ entry ∉ store.search "Σ" false := by
  intro store entry
  have missed : entry.holds (lower "Σ") = false := by decide +kernel
  refine ⟨?_, by decide +kernel, fun found => ?_⟩
  · simp [store, entry, openedOnSigmas_store, Store.all, Store.bundledOf]
  · exact absurd (List.mem_filter.mp found).2 (Bool.eq_false_iff.mp missed)

end Wavetable.Catalogue
