import Wavetable.Journal.Basic
import Wavetable.Proofs.Json.Members

/-!
Slots of fields: the names under which a record carries them. A field moves aside where its name is
reserved, and of two fields that come to the same slot the first one stays. That is so only for a
field with a reserved name beside one that has the name to which it moves; all other fields of a
call are carried, each in a slot of its own.
-/

namespace Wavetable.Journal

open Json (Members)

-----------------------------------------------------------------------------------------
-- Slots of names
-----------------------------------------------------------------------------------------

/-- A name under which a field is kept is free. -/
theorem not_mem_reservedNames_fieldSlot (name : String) : fieldSlot name ∉ reservedNames := by
  have moved : ∀ name ∈ reservedNames, "field_" ++ name ∉ reservedNames := by decide
  by_cases reserved : name ∈ reservedNames
  · simpa [fieldSlot, reserved] using moved name reserved
  · simp [fieldSlot, reserved]

/-- Two names have one slot if one of them is reserved and the other the one to which it moves. -/
theorem fieldSlot_eq_iff {name other : String}
    : fieldSlot name = fieldSlot other
      ↔ name = other
        ∨ (name ∈ reservedNames ∧ other = "field_" ++ name)
        ∨ (other ∈ reservedNames ∧ name = "field_" ++ other) := by
  have moved : ∀ {name}, name ∈ reservedNames → fieldSlot name = "field_" ++ name := by
    intro name reserved
    simp [fieldSlot, reserved]
  have kept : ∀ {name}, name ∉ reservedNames → fieldSlot name = name := by
    intro name free
    simp [fieldSlot, free]
  have aside : ∀ {name}, name ∈ reservedNames → "field_" ++ name ∉ reservedNames := by
    intro name reserved
    exact moved reserved ▸ not_mem_reservedNames_fieldSlot name
  constructor
  · intro same
    by_cases first : name ∈ reservedNames <;> by_cases second : other ∈ reservedNames
    · rw [moved first, moved second] at same
      exact .inl (String.append_right_inj _ |>.mp same)
    · rw [moved first, kept second] at same
      exact .inr (.inl ⟨first, same.symm⟩)
    · rw [kept first, moved second] at same
      exact .inr (.inr ⟨second, same⟩)
    · rw [kept first, kept second] at same
      exact .inl same
  · rintro (rfl | ⟨reserved, rfl⟩ | ⟨reserved, rfl⟩)
    · rfl
    · rw [moved reserved, kept (aside reserved)]
    · rw [moved reserved, kept (aside reserved)]

-----------------------------------------------------------------------------------------
-- Fields of a record
-----------------------------------------------------------------------------------------

/-- A record carries extra values, and fields under free names, by induction on the fields. -/
theorem mem_carried {extra fields : Fields} {field : String × Json}
    (member : field ∈ carried extra fields)
    : field ∈ extra ∨ field.1 ∉ reservedNames := by
  induction fields generalizing extra with
  | nil => exact .inl member
  | cons first rest ih =>
      have kept : field ∈ Fields.putNew extra (fieldSlot first.1) first.2
          ∨ field.1 ∉ reservedNames := ih member
      refine kept.elim (fun before => ?_) .inr
      rw [Fields.putNew] at before
      split at before
      next => exact .inl before
      next =>
        rcases List.mem_append.mp before with old | new
        · exact .inl old
        · obtain rfl := List.mem_singleton.mp new
          exact .inr (not_mem_reservedNames_fieldSlot first.1)

/-- A note without extra values carries no reserved name. -/
theorem reservedField?_of_plain {note : Note} (plain : note.extra = [])
    : reservedField? note.carried = none := by
  refine List.find?_eq_none.mpr fun name member => ?_
  obtain ⟨field, found, rfl⟩ := List.mem_map.mp member
  have kept := mem_carried found
  rw [plain] at kept
  simpa using kept

section
variable (extra fields : Fields) (name slot : String) (value : Json)

theorem get?_putNew
    : Members.get? (Fields.putNew fields name value) slot
      = (Members.get? fields slot).or (if name = slot then some value else none) := by
  rw [Fields.putNew]
  split
  next there =>
    by_cases same : name = slot
    · obtain ⟨old, found⟩ := Option.isSome_iff_exists.mp (same ▸ there)
      simp [found]
    · simp [same]
  next => simp [Members.get?_append, Members.get?]

/-- In each slot a record carries the extra value or else the first field for it, by induction on
the fields.
-/
theorem get?_carried
    : Members.get? (carried extra fields) slot
      = (Members.get? extra slot).or
          ((fields.find? fun field => fieldSlot field.1 = slot).map Prod.snd) := by
  induction fields generalizing extra with
  | nil => simp [carried]
  | cons field rest ih =>
      have later := ih (Fields.putNew extra (fieldSlot field.1) field.2)
      rw [get?_putNew, Option.or_assoc] at later
      refine later.trans (congrArg _ ?_)
      by_cases same : fieldSlot field.1 = slot <;> simp [same]

end

theorem nodup_putNew {fields : Fields} {name : String} {value : Json}
    (distinct : (fields.map Prod.fst).Nodup)
    : ((Fields.putNew fields name value).map Prod.fst).Nodup := by
  rw [Fields.putNew]
  split
  next => exact distinct
  next absent =>
    rw [Members.isSome_get?_iff] at absent
    rw [List.map_append, List.map_cons, List.map_nil, ← List.concat_eq_append]
    exact List.Nodup.concat absent distinct

/-- No two values of a record have the same slot, by induction on its fields. -/
theorem nodup_carried {extra fields : Fields} (distinct : (extra.map Prod.fst).Nodup)
    : ((carried extra fields).map Prod.fst).Nodup := by
  induction fields generalizing extra with
  | nil => exact distinct
  | cons field rest ih => exact ih (nodup_putNew distinct)

/-- Fields in slots of their own are all carried, each behind the ones before, by induction on the
fields.
-/
theorem carried_eq_append {extra fields : Fields}
    (distinct : (extra.map Prod.fst ++ fields.map fun field => fieldSlot field.1).Nodup)
    : carried extra fields = extra ++ fields.map fun field => (fieldSlot field.1, field.2) := by
  induction fields generalizing extra with
  | nil => simp [carried]
  | cons field rest ih =>
      have absent : ¬ (Members.get? extra (fieldSlot field.1)).isSome := by
        rw [Members.isSome_get?_iff]
        intro there
        exact (List.nodup_append.mp distinct).2.2 _ there _ List.mem_cons_self rfl
      have put : Fields.putNew extra (fieldSlot field.1) field.2
          = extra ++ [(fieldSlot field.1, field.2)] := if_neg absent
      have later : carried (extra ++ [(fieldSlot field.1, field.2)]) rest
          = extra ++ [(fieldSlot field.1, field.2)]
            ++ rest.map fun field => (fieldSlot field.1, field.2) := ih (by simpa using distinct)
      simpa [carried, put] using later

-----------------------------------------------------------------------------------------
-- Fields of a call
-----------------------------------------------------------------------------------------

/-- No field has the name to which another one moves. -/
def MovesApart (fields : Fields) : Prop :=
  ∀ name ∈ fields.map Prod.fst, name ∈ reservedNames → "field_" ++ name ∉ fields.map Prod.fst

/-- Fields with names of their own have slots of their own if none moves to the name of another. -/
theorem nodup_slots_iff {fields : Fields} (distinct : (fields.map Prod.fst).Nodup)
    : (fields.map fun field => fieldSlot field.1).Nodup ↔ MovesApart fields := by
  have slots : (fields.map fun field => fieldSlot field.1)
      = (fields.map Prod.fst).map fieldSlot := by simp
  rw [slots, List.nodup_map_iff_inj_on distinct]
  constructor
  · intro apart name member reserved moved
    have same := apart name member _ moved
      (fieldSlot_eq_iff.mpr (.inr (.inl ⟨reserved, rfl⟩)))
    have longer := congrArg String.length same
    rw [String.length_append] at longer
    exact absurd longer (by simp)
  · intro apart name member other member' same
    rcases fieldSlot_eq_iff.mp same with equal | ⟨reserved, rfl⟩ | ⟨reserved, rfl⟩
    · exact equal
    · exact absurd member' (apart name member reserved)
    · exact absurd member (apart other member' reserved)

/-- What a record carries of fields with names of their own: values in free slots of their own, of
each slot the first that was given for it, and so all of them exactly if none moves to the name of
another.
-/
structure Slotted (fields carried : Fields) : Prop where
  once : (carried.map Prod.fst).Nodup
  free : ∀ member ∈ carried, member.1 ∉ reservedNames
  first
    : ∀ slot, Members.get? carried slot
        = (fields.find? fun field => fieldSlot field.1 = slot).map Prod.snd
  complete
    : carried = fields.map (fun field => (fieldSlot field.1, field.2)) ↔ MovesApart fields

theorem slotted_carried {fields : Fields} (distinct : (fields.map Prod.fst).Nodup)
    : Slotted fields (carried [] fields) where
  once := nodup_carried List.nodup_nil
  free := fun _ found => (mem_carried found).resolve_left List.not_mem_nil
  first := fun slot => get?_carried [] fields slot
  complete := by
    rw [← nodup_slots_iff distinct]
    constructor
    · intro all
      have once : ((carried [] fields).map Prod.fst).Nodup := nodup_carried List.nodup_nil
      rw [all, List.map_map] at once
      exact once
    · intro apart
      exact carried_eq_append apart

section
variable {journal : Journal} {clock : Clock} {note : Note} {values : Fields}

/-- Values that are neither parts of a note nor said about it are fields of it. -/
theorem withValues_plain (plain : ∀ value ∈ values, value.1 ∉ settingNames)
    (allowed : fieldNamed? partNames values = none)
    : note.withValues values = .ok { note with extra := [], fields := note.fields ++ values } := by
  have absent : ∀ name ∈ settingNames, Members.get? values name = none := by
    intro name setting
    refine Option.not_isSome_iff_eq_none.mp fun there => ?_
    obtain ⟨value, member, rfl⟩ := List.mem_map.mp (Members.isSome_get?_iff.mp there)
    exact plain value member setting
  have fields : (values.filter fun value => !settingNames.contains value.1) = values := by
    simpa [List.filter_eq_self] using plain
  have cause : note.causeWith values = note.cause := by
    rw [Note.causeWith, absent errorSetting (by decide)]
    cases note.cause <;> rfl
  simp only [Note.withValues, allowed, absent "extra" (by decide), fields, cause, membersOf]

/-- Only extra values can make a note one that is refused. -/
theorem emit_of_plain (plain : note.extra = []) : ∃ lines, journal.emit clock note = .ok lines := by
  rw [emit, Note.record?, reservedField?_of_plain plain]
  split
  · cases Template.fill? note.template note.arguments <;> exact ⟨_, rfl⟩
  · exact ⟨_, rfl⟩

end

end Wavetable.Journal
