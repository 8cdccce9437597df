import Wavetable.Proofs.Journal.Handlers
import Wavetable.Proofs.Journal.Scopes

/-!
From which level on records are written. Handlers take what the threshold lets through, and a call
that installs handlers for a level also lowers the threshold to it. Both stay as they are until
the next call, so every record from that level on is written once, and none below. A threshold of
zero counts as none: where a call leaves it so, only warnings and graver records are written.
-/

namespace Wavetable.Journal

-----------------------------------------------------------------------------------------
-- Between two calls
-----------------------------------------------------------------------------------------

/-- What is done with a journal between the calls that configure it. -/
inductive Use (ε : Type)
  | play (activity : Activity ε)
  | enter (fields : Fields)
  | leave
  | warn (logger : Option String) (code : String) (level : Level) (template : String)
    (values : Fields)

/-- The journal after a use. -/
def Use.perform {ε : Type} (clock : Clock) (journal : Journal) : Use ε → Journal
  | .play activity => (activity.play clock journal).journal
  | .enter fields => journal.enter fields
  | .leave => journal.leave
  | .warn logger code level template values =>
      (journal.warnOnce clock logger code level template values).2

/-- The journal after uses, each at a time of its own. -/
def afterUses {ε : Type} (journal : Journal) : List (Clock × Use ε) → Journal
  | [] => journal
  | (clock, use) :: rest => afterUses (use.perform clock journal) rest

/-- Two moments of a journal between which it was not configured. -/
structure SameSettings (before after : Journal) : Prop where
  threshold : after.threshold = before.threshold
  handlers : after.handlers = before.handlers

section
variable {ε : Type} {before journal : Journal}

/-- No use changes the settings. What an activity does to a journal is to bind fields. -/
theorem SameSettings.perform (clock : Clock) (use : Use ε) (same : SameSettings before journal)
    : SameSettings before (use.perform clock journal) := by
  cases use with
  | play activity =>
      have bound : (activity.play clock journal).journal
          = journal.bind (activity.scoped journal.refusal? []).bound :=
        congrArg Played.journal (play_eq_played clock journal activity)
      rw [Use.perform, bound]
      exact ⟨same.threshold, same.handlers⟩
  | enter fields => exact ⟨same.threshold, same.handlers⟩
  | leave =>
      rw [Use.perform, Journal.leave]
      split
      · exact same
      · exact ⟨same.threshold, same.handlers⟩
  | warn logger code level template values =>
      rw [Use.perform, warnOnce]
      split
      · exact same
      · split
        · exact same
        · exact ⟨same.threshold, same.handlers⟩

/-- The settings last through any uses, by induction on them. -/
theorem SameSettings.afterUses {uses : List (Clock × Use ε)} (same : SameSettings before journal)
    : SameSettings before (afterUses journal uses) := by
  induction uses generalizing journal with
  | nil => exact same
  | cons first rest ih => exact ih (same.perform first.1 first.2)

end

-----------------------------------------------------------------------------------------
-- Records that are written
-----------------------------------------------------------------------------------------

/-- The level from which on records of loggers below the root are written, when handlers are
installed for a level while another threshold is in force.
-/
def leastWritten (threshold level : Level) : Level :=
  if level = 0 ∧ 0 ≤ threshold then Level.warning else level

/-- The lines of a record after handlers were installed. -/
def linesFrom (options : Options) (level least : Level) (context : Fields) (logger : Option String)
    (record : Record) : List Line :=
  if isBelowRoot logger then
    if 0 < record.level ∧ least ≤ record.level then
      [(options.taker level record.level).line context record]
    else []
  else if Level.warning ≤ record.level then [Handler.lastResort.line context record]
  else []

section
variable {journal before : Journal} {options : Options} {level : Level} {clock : Clock}
  {note : Note} {record : Record}

/-- A call with a level that can be read installs handlers and lowers the threshold. -/
theorem enable_ok (chosen : options.level.level = .ok level)
    : journal.enable options
      = .ok
          { journal with
            threshold := if journal.threshold = 0 then level else min journal.threshold level
            handlers := options.handlers level } := by
  rw [Journal.enable, chosen]
  rfl

/-- What is let through and taken is what is at least as grave as told. The threshold that is left
is zero only if the level is, and then it counts as that for warnings.
-/
theorem admits_and_taken_iff {logger : Option String} {recordLevel : Level}
    (place : isBelowRoot logger = true)
    (lowered : journal.threshold
      = if before.threshold = 0 then level else min before.threshold level)
    : journal.admits logger recordLevel = true ∧ level ≤ recordLevel
      ↔ 0 < recordLevel ∧ leastWritten before.threshold level ≤ recordLevel := by
  have warning : Level.warning = 30 := rfl
  simp only [admits, lowestFor, lowest, place, lowered, if_true, Bool.and_eq_true,
    decide_eq_true_eq, leastWritten]
  by_cases unset : before.threshold = 0
  · simp only [unset, if_true]
    unfold Level at *
    split <;> split <;> omega
  · simp only [unset, if_false]
    unfold Level at *
    split <;> split <;> omega

/-- A record that is made is written if it is let through. -/
theorem emit_of_made (made : note.record? clock = .ok (some record))
    : journal.emit clock note
      = .ok (if journal.admits note.logger record.level then journal.written note.logger record
          else []) := by
  rw [emit, made, record?_level made]
  split <;> rfl

/-- The lines of a record at any moment at which the settings are those of the call. -/
theorem emit_after_enable (chosen : options.level.level = .ok level)
    {enabled : Journal} (accepted : before.enable options = .ok enabled)
    (same : SameSettings enabled journal) (made : note.record? clock = .ok (some record))
    : journal.emit clock note
      = .ok (linesFrom options level (leastWritten before.threshold level) journal.context
          note.logger record) := by
  obtain rfl := Except.ok.inj ((enable_ok chosen).symm.trans accepted)
  rw [emit_of_made made, linesFrom]
  refine congrArg Except.ok ?_
  cases place : isBelowRoot note.logger with
  | true =>
      have shown : journal.admits note.logger record.level = true ∧ level ≤ record.level
          ↔ 0 < record.level ∧ leastWritten before.threshold level ≤ record.level :=
        admits_and_taken_iff place same.threshold
      rw [written_below place, same.handlers, Options.filter_accepts, if_pos rfl]
      simp only [← shown]
      by_cases taken : level ≤ record.level <;>
        cases journal.admits note.logger record.level <;> simp [taken]
  | false =>
      rw [written_stray place]
      by_cases grave : Level.warning ≤ record.level
      · have positive : 0 < record.level := Int.lt_of_lt_of_le (by decide) grave
        simp [admits, lowestFor, place, grave, positive]
      · simp [grave]

end

end Wavetable.Journal
