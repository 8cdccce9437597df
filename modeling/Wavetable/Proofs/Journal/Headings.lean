import Wavetable.Proofs.Journal.Slots

/-!
What the written object of a record says of the record itself. Its heading comes first and is then
overlaid with the context and the fields of the record, so a member of the heading is the record's
own exactly where neither gives another value to its name. The fields of a record cannot have the
name of the message, but a context can.
-/

namespace Wavetable.Journal

open Json (Members)

section
variable (showsTrace : Bool) (context : Fields) (record : Record)

/-- The names in the heading of a record. -/
theorem names_heading
    : (Layout.heading record).map Prod.fst
      = ["ts", "level", "logger"] ++ if record.message.isEmpty then [] else ["message"] := by
  unfold Layout.heading
  cases record.message.isEmpty <;> rfl

theorem nodup_heading : ((Layout.heading record).map Prod.fst).Nodup := by
  rw [names_heading]
  cases record.message.isEmpty <;> decide

/-- The heading says nothing about an error. -/
theorem get?_heading_error : Members.get? (Layout.heading record) "error" = none := by
  refine Option.not_isSome_iff_eq_none.mp fun there => ?_
  have named := Members.isSome_get?_iff.mp there
  rw [names_heading] at named
  revert named
  cases record.message.isEmpty <;> decide

theorem nodup_members
    : ((Layout.members showsTrace context record).map Prod.fst).Nodup := by
  have merged : ((Members.overlay (Members.overlay (Layout.heading record) context)
      record.fields).map Prod.fst).Nodup :=
    Members.nodup_overlay (Members.nodup_overlay (nodup_heading record))
  unfold Layout.members
  cases record.cause with
  | none => exact merged
  | some cause => exact Members.nodup_put merged

/-- A member shows the error of the record, or else what its fields, its context or its heading
say.
-/
theorem get?_members (name : String)
    : Members.get? (Layout.members showsTrace context record) name
      = (if name = "error" then record.cause.map (Layout.causeObject showsTrace) else none).or
          ((Members.last? record.fields name).or
            ((Members.last? context name).or (Members.get? (Layout.heading record) name))) := by
  unfold Layout.members
  cases record.cause with
  | none =>
      simp only [Members.get?_overlay]
      split <;> rfl
  | some cause =>
      simp only [Members.get?_put, Members.get?_overlay, eq_comm (a := name)]
      split <;> rfl

end

/-- No field of a record that is made of a note has a reserved name. -/
theorem Note.free_of_record? {note : Note} {clock : Clock} {record : Record}
    (made : note.record? clock = .ok (some record))
    : ∀ field ∈ record.fields, field.1 ∉ reservedNames := by
  obtain ⟨free, message, -, rfl⟩ := Note.record?_ok made
  intro field member
  simpa using List.find?_eq_none.mp free field.1 (List.mem_map_of_mem member)

/-- The object that is written of a record whose fields have no reserved names has one member of
each name. A member of the heading is the record's own unless its fields or the context give a value
to its name, and then it is the last of these; the fields, which win over the context, give none to
that of the message. They are shown as they are, except for one in the place of the error.
-/
theorem heading_shown_unless_named (showsTrace : Bool) (context : Fields) (record : Record)
    (free : ∀ field ∈ record.fields, field.1 ∉ reservedNames)
    : let shown := Layout.members showsTrace context record
      (Layout.object showsTrace).text context record = Json.compact (.object shown)
      ∧ (shown.map Prod.fst).Nodup
      ∧ (∀ name value, (name, value) ∈ Layout.heading record
          → Members.get? shown name
            = some (((Members.last? record.fields name).or (Members.last? context name)).getD
                value))
      ∧ Members.last? record.fields "message" = none
      ∧ ∀ name value, Members.last? record.fields name = some value
          → Members.get? shown name = some value ∨ name = "error" ∧ record.cause.isSome := by
  intro shown
  refine ⟨rfl, nodup_members showsTrace context record, ?_, ?_, ?_⟩
  · intro name value heads
    have own : Members.get? (Layout.heading record) name = some value :=
      Members.get?_of_mem (nodup_heading record) heads
    have noError : name ≠ "error" := by
      rintro rfl
      exact Option.some_ne_none value (own.symm.trans (get?_heading_error record))
    rw [get?_members, own, if_neg noError]
    cases Members.last? record.fields name <;> cases Members.last? context name <;> rfl
  · have absent : (record.fields.filter (·.1 = "message")) = [] := by
      refine List.filter_eq_nil_iff.mpr fun field member named => free field member ?_
      rw [of_decide_eq_true named]
      decide
    rw [Members.last?, absent]
    rfl
  · intro name value given
    rw [get?_members, given]
    by_cases place : name = "error"
    · cases record.cause with
      | none => simp
      | some cause => exact .inr ⟨place, rfl⟩
    · exact .inl (by simp [place])

/-- Inside of a block a record shows its own level and message, and the field that it has in common
with the context.
-/
theorem heading_shown_unless_named_in_block
    : let context : Fields := [("expr", .text "x"), ("mode", .text "fast")]
      let note := Note.mk none Level.info "hi" [] []
        [("expr", .text "y"), ("name", .integer 2)] none
      ∃ record, note.record? 0.0 = .ok (some record)
        ∧ (∀ field ∈ record.fields, field.1 ∉ reservedNames)
        ∧ Members.get? (Layout.members false context record) "level" = some (.text "INFO")
        ∧ Members.get? (Layout.members false context record) "message" = some (.text "hi")
        ∧ Members.get? (Layout.members false context record) "expr" = some (.text "y") := by
  intro context note
  obtain ⟨record, made⟩ : ∃ record, note.record? 0.0 = .ok (some record) := ⟨_, rfl⟩
  have free := Note.free_of_record? made
  obtain ⟨-, -, heads, -, wins⟩ := heading_shown_unless_named false context record free
  obtain rfl := Option.some.inj (Except.ok.inj made)
  have level := heads "level" (.text "INFO") (List.mem_cons_of_mem _ List.mem_cons_self)
  have message := heads "message" (.text "hi")
    (List.mem_cons_of_mem _ (List.mem_cons_of_mem _ (List.mem_cons_of_mem _ List.mem_cons_self)))
  have expr := (wins "expr" (.text "y") rfl).resolve_right fun error => absurd error.1 (by decide)
  exact ⟨_, made, free, level, message, expr⟩

/-- A record is written with the level and the message that its context gives, and with the time and
the logger that its fields give.
-/
theorem heading_forged
    : let context : Fields := [("message", .text "forged"), ("level", .text "CRITICAL")]
      let note := Note.mk none Level.info "hi" [] []
        [("ts", .text "never"), ("logger", .text "other")] none
      ∃ record, note.record? 0.0 = .ok (some record)
        ∧ Layout.heading record
          = [("ts", .text "1970-01-01T00:00:00.000Z"), ("level", .text "INFO"),
              ("logger", .text "wavexpr"), ("message", .text "hi")]
        ∧ Layout.members false context record
          = [("ts", .text "never"), ("level", .text "CRITICAL"), ("logger", .text "other"),
              ("message", .text "forged")] := by
  have stamp : Clock.stamp 0.0 = "1970-01-01T00:00:00.000Z" := by decide +kernel
  exact ⟨_, rfl, by simp only [Layout.heading, stamp]; rfl, rfl⟩

end Wavetable.Journal
