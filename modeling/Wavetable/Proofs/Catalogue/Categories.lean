import Mathlib.Data.String.Basic
import Wavetable.Catalogue.Query
import Wavetable.Catalogue.Turns
import Wavetable.Proofs.Catalogue.Undo

/-!
Categories as a way to the entries. They are listed in order, each once, and they are those of the
entries. The mode under which one is listed leads to entries, unless all that is in it are formulas
of the user for whole tables.
-/

namespace Wavetable.Text

theorem pairwise_insertName {name : String} {names : List String}
    (sorted : names.Pairwise (· < ·))
    : (insertName name names).Pairwise (· < ·) := by
  induction names with
  | nil => exact List.pairwise_singleton ..
  | cons head rest ih =>
      obtain ⟨above, others⟩ := List.pairwise_cons.mp sorted
      unfold insertName
      split
      next => exact sorted
      next other =>
        split
        next below =>
          refine List.pairwise_cons.mpr ⟨fun next member => ?_, sorted⟩
          rcases List.mem_cons.mp member with rfl | later
          · exact below
          · exact below.trans (above next later)
        next notBelow =>
          refine List.pairwise_cons.mpr ⟨fun next member => ?_, ih others⟩
          rcases mem_insertName.mp member with rfl | later
          · exact lt_of_le_of_ne (not_lt.mp notBelow) (Ne.symm other)
          · exact above next later

/-- By induction on the given names. -/
theorem pairwise_distinct (names : List String) : (distinct names).Pairwise (· < ·) := by
  induction names with
  | nil => exact List.Pairwise.nil
  | cons name rest ih => exact pairwise_insertName ih

end Wavetable.Text

namespace Wavetable.Catalogue

/-- All formulas of the user can be read. -/
def Store.IsReadable (store : Store) : Prop :=
  ∀ entry ∈ store.user, ∃ formula, Formula.compile entry.expression = .ok formula

/-- A category holds no bundled entry, and all formulas of the user in it are for whole tables. -/
def Store.HoldsOwnTables (store : Store) (category : String) : Prop :=
  (∀ entry ∈ store.bundled, entry.category ≠ category)
  ∧ ∀ entry ∈ store.user, entry.category = category → entry.mode? = some .multiFrame

section
variable {store : Store} {category : String}

/-- Only a formula that cannot be read has no mode. -/
theorem Store.IsReadable.exists_mode {entry : Entry} (readable : store.IsReadable)
    (own : entry ∈ store.user)
    : ∃ isMultiFrame, entry.mode? = some (.ofFlag isMultiFrame) := by
  obtain ⟨formula, compiled⟩ := readable entry own
  exact ⟨formula.usesFrame, by rw [Entry.mode?, compiled]; rfl⟩

theorem Store.map_name_categories (store : Store)
    : store.categories.map (·.name) = Text.distinct (store.every.map (·.category)) := by
  rw [categories, List.map_map]
  exact List.map_id _

theorem Store.isMultiFrame_iff {listed : Category} (member : listed ∈ store.categories)
    : listed.isMultiFrame = true ↔ ∃ entry ∈ store.multis, entry.category = listed.name := by
  obtain ⟨name, -, rfl⟩ := List.mem_map.mp member
  simp only [List.contains_eq_mem, decide_eq_true_eq, List.mem_map]

theorem Store.mem_every {entry : Entry}
    : entry ∈ store.every
      ↔ entry ∈ store.singles ∨ entry ∈ store.multis ∨ entry ∈ store.user := by
  simp only [every, bundled, List.mem_append, or_assoc]

/-- Under a mode, a category leads to the bundled entries of that mode and to the formulas of the
user that compile to it.
-/
theorem Store.inCategory_ne_nil_iff {isMultiFrame : Bool}
    : store.inCategory category isMultiFrame ≠ []
      ↔ (∃ entry ∈ store.bundledOf isMultiFrame, entry.category = category)
        ∨ ∃ entry ∈ store.user, entry.category = category
            ∧ entry.mode? = some (.ofFlag isMultiFrame) := by
  simp only [ne_eq, inCategory, all, List.filter_append, List.filter_filter,
    List.append_eq_nil_iff, List.filter_eq_nil_iff, decide_eq_true_eq, Bool.and_eq_true,
    not_and_or, not_forall, not_or, not_not, exists_prop]

/-- A category with formulas of the user for whole tables leads to them under their mode. -/
theorem Store.HoldsOwnTables.leads_to_tables (own : store.HoldsOwnTables category)
    (used : ∃ entry ∈ store.every, entry.category = category)
    : store.inCategory category true ≠ [] ∧ store.inCategory category false = [] := by
  constructor
  · obtain ⟨entry, member, same⟩ := used
    rcases List.mem_append.mp member with bundled | given
    · exact absurd same (own.1 entry bundled)
    · exact Store.inCategory_ne_nil_iff.mpr (.inr ⟨entry, given, same, own.2 entry given same⟩)
  · by_contra leads
    rcases Store.inCategory_ne_nil_iff.mp leads with
      ⟨entry, bundled, same⟩ | ⟨entry, given, same, mode⟩
    · exact own.1 entry (List.mem_append_left _ bundled) same
    · cases (own.2 entry given same).symm.trans mode

/-- The mode of a category leads to an entry, by the places where the entries may stand. -/
theorem Store.inCategory_of_listed {listed : Category} (readable : store.IsReadable)
    (member : listed ∈ store.categories) (mixed : ¬ store.HoldsOwnTables listed.name)
    : store.inCategory listed.name listed.isMultiFrame ≠ [] := by
  rw [Store.inCategory_ne_nil_iff]
  cases flag : listed.isMultiFrame with
  | true => exact .inl ((Store.isMultiFrame_iff member).mp flag)
  | false =>
      have noTables : ∀ entry ∈ store.multis, entry.category ≠ listed.name :=
        fun entry bundled same => Bool.false_ne_true
          (flag.symm.trans ((Store.isMultiFrame_iff member).mpr ⟨entry, bundled, same⟩))
      by_contra nothing
      simp only [not_or, not_exists, not_and] at nothing
      refine mixed ⟨fun entry bundled => ?_, fun entry given same => ?_⟩
      · rcases List.mem_append.mp bundled with single | table
        · exact nothing.1 entry single
        · exact noTables entry table
      · obtain ⟨isMultiFrame, mode⟩ := readable.exists_mode given
        cases isMultiFrame with
        | true => exact mode
        | false => exact absurd mode (nothing.2 entry given same)

end

/-- Where all formulas of the user can be read, the categories are listed in order and without
repetition, and they are exactly those of the entries. The mode of a category leads to at least one
entry, with one exception: where the category holds nothing but formulas of the user for whole
tables, it is listed for single frames, and there it leads to none, although it does under the other
mode.
-/
theorem categories_lead_to_entries (store : Store) (readable : store.IsReadable)
    : (store.categories.map (·.name)).Pairwise (· < ·)
      ∧ (∀ name,
          (∃ listed ∈ store.categories, listed.name = name)
          ↔ ∃ entry ∈ store.every, entry.category = name)
      ∧ ∀ listed ∈ store.categories,
          (¬ store.HoldsOwnTables listed.name
            → store.inCategory listed.name listed.isMultiFrame ≠ [])
          ∧ (store.HoldsOwnTables listed.name
            → listed.isMultiFrame = false ∧ store.inCategory listed.name false = []
              ∧ store.inCategory listed.name true ≠ []) := by
  have names := store.map_name_categories
  have listed_iff : ∀ name,
      (∃ listed ∈ store.categories, listed.name = name)
      ↔ ∃ entry ∈ store.every, entry.category = name := by
    intro name
    rw [← List.mem_map, names, Text.mem_distinct, List.mem_map]
  refine ⟨names ▸ Text.pairwise_distinct _, listed_iff, fun listed member => ⟨?_, fun own => ?_⟩⟩
  · exact Store.inCategory_of_listed readable member
  · obtain ⟨leads, misleads⟩ := own.leads_to_tables ((listed_iff _).mp ⟨listed, member, rfl⟩)
    refine ⟨?_, misleads, leads⟩
    by_contra flag
    obtain ⟨entry, table, same⟩ :=
      (Store.isMultiFrame_iff member).mp ((Bool.not_eq_false _).mp flag)
    exact own.1 entry (List.mem_append_right _ table) same

/-- A frame variable is a formula for whole tables. -/
theorem compile_frame_variable
    : ∃ formula, Formula.compile "y" = .ok formula ∧ formula.mode = .multiFrame := by
  have read : Formula.compile "y" = .ok (.ofTree "y" (.var "y")) := rfl
  refine ⟨_, read, ?_⟩
  have mentioned : (Formula.Expr.var "y").mentions "y" = true := by decide +kernel
  simp [Formula.Compiled.mode, Formula.Compiled.usesFrame, Formula.Compiled.ofTree, mentioned,
    Formula.Mode.ofFlag]

/-- A formula of the user for whole tables stands in a category with a bundled one for single
frames, to which the category leads.
-/
theorem categories_lead_to_entries_shared
    : let ramp := Labels.newEntry ⟨"w", "Ramp", "Shapes"⟩ ⟨0⟩ openingTime
      let table := Labels.newEntry ⟨"y", "Tilt", "Shapes"⟩ ⟨1⟩ openingTime
      let store : Store := ⟨[ramp], [], [table]⟩
      store.IsReadable
      ∧ store.categories = [⟨"Shapes", false⟩]
      ∧ ¬ store.HoldsOwnTables "Shapes"
      ∧ store.inCategory "Shapes" false ≠ [] := by
  intro ramp table store
  have readable : store.IsReadable := by
    intro entry own
    obtain rfl := List.mem_singleton.mp own
    obtain ⟨formula, read, -⟩ := compile_frame_variable
    exact ⟨formula, read⟩
  have listed : store.categories = [⟨"Shapes", false⟩] := by decide
  have mixed : ¬ store.HoldsOwnTables "Shapes" := fun own =>
    own.1 ramp (List.mem_singleton.mpr rfl) rfl
  have leads := (categories_lead_to_entries store readable).2.2 ⟨"Shapes", false⟩
    (listed ▸ List.mem_singleton.mpr rfl)
  exact ⟨readable, listed, mixed, leads.1 mixed⟩

/-- The user of an empty catalogue adds a formula for whole tables. Its category is listed for
single frames, where there is nothing in it.
-/
theorem category_leads_to_nothing
    : let addition : Timestamp × Turn := (openingTime, .own (.edit (.add "y" "N" "Mine" true)))
      let opened := openedOn ⟨.missing, .missing, .missing, false, false, 0⟩
      let store := (opened.afterTurns .mk [addition]).store
      store.IsReadable
      ∧ store.categories = [⟨"Mine", false⟩]
      ∧ store.inCategory "Mine" false = [] := by
  intro addition opened store
  obtain ⟨formula, read, mode⟩ := compile_frame_variable
  have allowed : (Edit.add "y" "N" "Mine" true).change ⟨.mk, openingTime⟩ opened
      = .ok (opened.adding (Labels.newEntry ⟨"y", "N", "Mine"⟩ ⟨0⟩ openingTime)).withoutResult := by
    have table : checkMode "y" true = .ok () := by
      rw [checkMode, read]
      exact if_pos mode
    have labelled : checkLabels "y" "N" "Mine" = .ok ⟨"y", "N", "Mine"⟩ := rfl
    simp only [Edit.change, Catalogue.addition, table, labelled]
    rfl
  have added : store = ⟨[], [], [Labels.newEntry ⟨"y", "N", "Mine"⟩ ⟨0⟩ openingTime]⟩ := by
    have performed : store = (commitIfAllowed opened (.ok _)).2.store :=
      congrArg (fun outcome => outcome.2.store)
        ((Edit.perform_eq ⟨.mk, openingTime⟩ opened _).trans (congrArg _ allowed))
    rw [performed]
    rfl
  obtain ⟨own, listed, nothing⟩
      : (∀ entry ∈ store.user, entry.expression = "y") ∧ store.categories = [⟨"Mine", false⟩]
        ∧ store.inCategory "Mine" false = [] := by
    rw [added]
    refine ⟨by simp [Labels.newEntry], by decide, ?_⟩
    simp [Store.inCategory, Store.all, Store.bundledOf, Labels.newEntry, Entry.mode?, read, mode,
      Formula.Mode.ofFlag]
  exact ⟨fun entry member => ⟨formula, own entry member ▸ read⟩, listed, nothing⟩

end Wavetable.Catalogue
