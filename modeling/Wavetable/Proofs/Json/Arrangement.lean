import Wavetable.Digest.Stable
import Wavetable.Proofs.Json.Unambiguity

/-!
What canonical texts tell apart. Ordering the members of all objects by name makes two values the
same exactly if they differ in the order of members alone, and different values have different
texts.
-/

namespace Wavetable.Json

open Wavetable.Number
open Float.Model (Format)
open Float.Model.UnpackedFloat (unpack)

-----------------------------------------------------------------------------------------
-- Values up to the order of members
-----------------------------------------------------------------------------------------

/-- No object gives a name twice. -/
inductive NamesOnce : Json → Prop
  | atom {value : Json} (atom : IsAtom value) : NamesOnce value
  | text (s : String) : NamesOnce (.text s)
  | list {items : List Json} (each : ∀ item ∈ items, NamesOnce item) : NamesOnce (.list items)
  | object {members : List (String × Json)} (once : (members.map (·.1)).Nodup)
    (each : ∀ member ∈ members, NamesOnce member.2)
    : NamesOnce (.object members)

/-- Values that are the same but for the order of members: lists have alike items in the same
places, and objects the same names with alike values.
-/
inductive Alike : Json → Json → Prop
  | atom {value : Json} (atom : IsAtom value) : Alike value value
  | text (s : String) : Alike (.text s) (.text s)
  | list {items items' : List Json} (count : items.length = items'.length)
    (each : ∀ i (inside : i < items.length) (inside' : i < items'.length),
      Alike items[i] items'[i])
    : Alike (.list items) (.list items')
  | object {members members' : List (String × Json)}
    (names : (members.map (·.1)).Perm (members'.map (·.1)))
    (each : ∀ name value value', (name, value) ∈ members → (name, value') ∈ members' →
      Alike value value')
    : Alike (.object members) (.object members')

/-- Doubles are alike if they have the same bits or both are no number, so the zeros differ. -/
theorem alike_number_iff {x y : Float}
    : Alike (.number x) (.number y)
      ↔ (x.isNaN = true ∧ y.isNaN = true) ∨ x.toBits = y.toBits := by
  constructor
  · rintro ⟨⟩
    exact .inr rfl
  · intro same
    have same : x = y := by
      apply eq_of_unpack
      rcases same with ⟨none, none'⟩ | bits
      · change x.toModel.unpack.isNaN = true at none
        change y.toModel.unpack.isNaN = true at none'
        generalize x.toModel.unpack = f, y.toModel.unpack = g at none none' ⊢
        cases f <;> cases g <;> first | rfl | contradiction
      · exact congrArg (fun bits : UInt64 => unpack Format.binary64 bits.toBitVec) bits
    exact same ▸ .atom (.number x)

example : ¬ Alike (.number 0.0) (.number (-0.0)) := by
  rw [alike_number_iff]
  decide +kernel

-----------------------------------------------------------------------------------------
-- Ordered members
-----------------------------------------------------------------------------------------

theorem sortedItems_eq (items : List Json) : sortedItems items = items.map sorted := by
  induction items with
  | nil => rfl
  | cons item rest ih => rw [sortedItems, ih, List.map_cons]

theorem sortedMembers_eq (members : List (String × Json))
    : sortedMembers members = members.map fun member => (member.1, sorted member.2) := by
  induction members with
  | nil => rfl
  | cons member rest ih => rw [sortedMembers, ih, List.map_cons]

theorem names_sortedMembers (members : List (String × Json))
    : (sortedMembers members).map (·.1) = members.map (·.1) := by
  rw [sortedMembers_eq, List.map_map]
  rfl

theorem inOrder_perm (members : List (String × Json)) : (inOrder members).Perm members :=
  List.mergeSort_perm _ _

theorem pairwise_inOrder (members : List (String × Json))
    : (inOrder members).Pairwise fun left right => left.1 ≤ right.1 := by
  have transitive : ∀ a b c : String × Json, decide (a.1 ≤ b.1) = true →
      decide (b.1 ≤ c.1) = true → decide (a.1 ≤ c.1) = true := by
    intro a b c first second
    rw [decide_eq_true_eq] at *
    exact String.le_trans first second
  have total : ∀ a b : String × Json, (decide (a.1 ≤ b.1) || decide (b.1 ≤ a.1)) = true := by
    intro a b
    simpa using String.le_total a.1 b.1
  exact (List.pairwise_mergeSort transitive total members).imp of_decide_eq_true

/-- Members with names of their own have one order. -/
theorem inOrder_eq_iff_perm {members members' : List (String × Json)}
    (once : (members.map (·.1)).Nodup)
    : inOrder members = inOrder members' ↔ members.Perm members' := by
  constructor
  · intro same
    exact (inOrder_perm members).symm.trans (same ▸ inOrder_perm members')
  · intro perm
    have rearranged := ((inOrder_perm members).trans perm).trans (inOrder_perm members').symm
    refine rearranged.eq_of_pairwise ?_ (pairwise_inOrder members) (pairwise_inOrder members')
    intro left right known known' before after
    have known := (inOrder_perm members).mem_iff.mp known
    have known' := (perm.trans (inOrder_perm members').symm).mem_iff.mpr known'
    exact List.inj_on_of_nodup_map once known known' (String.le_antisymm before after)

theorem mem_sortedMembers {members : List (String × Json)} {name : String} {value : Json}
    (known : (name, value) ∈ members)
    : (name, sorted value) ∈ sortedMembers members := by
  rw [sortedMembers_eq]
  exact List.mem_map_of_mem known

/-- Members are the same up to their order if their names are, and every name has one value. -/
theorem sortedMembers_perm {members members' : List (String × Json)}
    (once : (members.map (·.1)).Nodup) (names : (members.map (·.1)).Perm (members'.map (·.1)))
    (each : ∀ name value value', (name, value) ∈ members → (name, value') ∈ members' →
      sorted value = sorted value')
    : (sortedMembers members).Perm (sortedMembers members') := by
  have distinct : (sortedMembers members).Nodup := by
    rw [← names_sortedMembers] at once
    exact once.of_map _
  have count : (sortedMembers members').length ≤ (sortedMembers members).length := by
    have count := names.length_eq
    rw [List.length_map, List.length_map] at count
    simp [sortedMembers_eq, count]
  refine (distinct.subperm fun member sortedKnown => ?_).perm_of_length_le count
  rw [sortedMembers_eq] at sortedKnown
  obtain ⟨⟨name, value⟩, known, rfl⟩ := List.mem_map.mp sortedKnown
  obtain ⟨⟨_, value'⟩, known', rfl⟩ := List.mem_map.mp
    (names.mem_iff.mp (List.mem_map_of_mem known))
  rw [each _ value value' known known']
  exact mem_sortedMembers known'

-----------------------------------------------------------------------------------------
-- Ordered values
-----------------------------------------------------------------------------------------

section
variable {value other : Json}

theorem NamesOnce.items {items : List Json} (once : NamesOnce (.list items))
    : ∀ item ∈ items, NamesOnce item := by
  cases once with
  | atom atom => cases atom
  | list each => exact each

theorem NamesOnce.members {members : List (String × Json)} (once : NamesOnce (.object members))
    : (members.map (·.1)).Nodup ∧ ∀ member ∈ members, NamesOnce member.2 := by
  cases once with
  | atom atom => cases atom
  | object once each => exact ⟨once, each⟩

/-- Values that are alike are ordered to the same value, by induction on how they are alike. -/
theorem Alike.sorted_eq (alike : Alike value other) (once : NamesOnce value)
    (once' : NamesOnce other)
    : sorted value = sorted other := by
  induction alike with
  | atom => rfl
  | text => rfl
  | list count each ih =>
      rw [sorted, sorted, sortedItems_eq, sortedItems_eq]
      refine congrArg Json.list (List.ext_getElem (by simpa using count) fun i inside inside' => ?_)
      rw [List.length_map] at inside inside'
      rw [List.getElem_map, List.getElem_map]
      exact ih i inside inside' (once.items _ (List.getElem_mem inside))
        (once'.items _ (List.getElem_mem inside'))
  | object names each ih =>
      obtain ⟨once, parts⟩ := once.members
      obtain ⟨-, parts'⟩ := once'.members
      have perm := sortedMembers_perm once names fun name value value' known known' =>
        ih name value value' known known' (parts _ known) (parts' _ known')
      rw [← names_sortedMembers] at once
      rw [sorted, sorted, (inOrder_eq_iff_perm once).mpr perm]

/-- Values that are ordered to the same value are alike, by induction on the first of them. -/
theorem alike_of_sorted_eq (once : NamesOnce value) (once' : NamesOnce other)
    (same : sorted value = sorted other)
    : Alike value other := by
  induction once generalizing other with
  | atom atom =>
      cases atom <;> cases other <;> simp only [sorted, reduceCtorEq, Json.bool.injEq,
        Json.integer.injEq, Json.number.injEq] at same
      case null.null => exact .atom .null
      case bool.bool => exact same ▸ .atom (.bool _)
      case integer.integer => exact same ▸ .atom (.integer _)
      case number.number => exact same ▸ .atom (.number _)
  | text s =>
      cases other <;> simp only [sorted, reduceCtorEq, Json.text.injEq] at same
      exact same ▸ .text s
  | list each ih =>
      cases other <;> simp only [sorted, reduceCtorEq, Json.list.injEq] at same
      rw [sortedItems_eq, sortedItems_eq] at same
      have count := congrArg List.length same
      rw [List.length_map, List.length_map] at count
      refine .list count fun i inside inside' => ?_
      refine ih _ (List.getElem_mem inside) (once'.items _ (List.getElem_mem inside')) ?_
      have here := congrArg (·[i]?) same
      simpa [inside, inside'] using here
  | @object members once each ih =>
      cases other <;> simp only [sorted, reduceCtorEq, Json.object.injEq] at same
      next members' =>
      obtain ⟨once', parts'⟩ := once'.members
      rw [← names_sortedMembers] at once once'
      have perm := (inOrder_eq_iff_perm once).mp same
      have names := perm.map (·.1)
      rw [names_sortedMembers, names_sortedMembers] at names
      refine .object names fun name value value' known known' => ?_
      refine ih _ known (parts' _ known') ?_
      have found := perm.mem_iff.mp (mem_sortedMembers known)
      have one := List.inj_on_of_nodup_map once' found (mem_sortedMembers known') rfl
      exact (Prod.mk.inj one).2

end

end Wavetable.Json
