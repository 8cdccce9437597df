import Wavetable.Proofs.Journal.Headings
import Wavetable.Proofs.Json.Reading
import Wavetable.Proofs.Json.Unquoted

/-!
Lines for programs. A record is written as an object on one line. If all doubles in it are finite,
the line is a JSON text and is read back as the members of the record; otherwise it is none.
-/

namespace Wavetable.Journal

open Json (Inside IsAtom IsReadable IsTextOf Members NamesOnce)

section
variable {showsTrace : Bool} {context : Fields} {record : Record}

/-- The members of a record are those of its heading, of the context and of its fields, and its
error.
-/
theorem mem_members {member : String × Json}
    (known : member ∈ Layout.members showsTrace context record)
    : member ∈ Layout.heading record ∨ member ∈ context ++ record.fields
      ∨ ∃ cause, member = ("error", Layout.causeObject showsTrace cause) := by
  have merged : ∀ {member}, member ∈ Members.overlay
      (Members.overlay (Layout.heading record) context) record.fields →
      member ∈ Layout.heading record ∨ member ∈ context ++ record.fields := by
    intro member known
    rcases Members.mem_overlay known with known | field
    · exact (Members.mem_overlay known).imp_right (List.mem_append_left _)
    · exact .inr (List.mem_append_right _ field)
  unfold Layout.members at known
  cases cause : record.cause with
  | none =>
      rw [cause] at known
      exact (merged known).imp_right .inl
  | some cause' =>
      rw [cause] at known
      rcases Members.mem_put known with known | rfl
      · exact (merged known).imp_right .inl
      · exact .inr (.inr ⟨cause', rfl⟩)

theorem exists_text_of_mem_heading {member : String × Json}
    (heads : member ∈ Layout.heading record)
    : ∃ s, member.2 = .text s := by
  rcases List.mem_append.mp heads with first | message
  · simp only [List.mem_cons, List.not_mem_nil, or_false] at first
    rcases first with rfl | rfl | rfl <;> exact ⟨_, rfl⟩
  · split at message
    next => contradiction
    next =>
      rw [List.mem_singleton.mp message]
      exact ⟨_, rfl⟩

theorem namesOnce_causeObject (cause : Cause)
    : NamesOnce (Layout.causeObject showsTrace cause) := by
  have message : NamesOnce ((cause.message?.map Json.text).getD .null) := by
    cases cause with
    | raised => exact .text _
    | absent => exact .atom .null
  unfold Layout.causeObject
  cases showsTrace
  · exact .object (by simp) (by simpa using ⟨.text _, message⟩)
  · exact .object (by simp) (by simpa using ⟨.text _, message, .text _⟩)

/-- The members of a record give no name twice, if its fields and the context do not. -/
theorem namesOnce_members (once : ∀ field ∈ context ++ record.fields, NamesOnce field.2)
    : NamesOnce (.object (Layout.members showsTrace context record)) := by
  refine .object (nodup_members showsTrace context record) fun member known => ?_
  rcases mem_members known with heads | field | ⟨cause, rfl⟩
  · obtain ⟨s, text⟩ := exists_text_of_mem_heading heads
    exact text ▸ .text s
  · exact once member field
  · exact namesOnce_causeObject cause

end

end Wavetable.Journal
