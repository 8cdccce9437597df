import Wavetable.Journal.Work
import Wavetable.Proofs.Journal.Slots
import Wavetable.Proofs.Json.Members

/-!
What is bound inside a block ends with it. An activity is also told by the places of its notes: each
of them sees what the journal had bound at the start, overlaid with the fields that are bound around
its place, and a block needs nothing undone because nothing that is bound in it is passed on.
-/

namespace Wavetable.Journal

open Formula

-----------------------------------------------------------------------------------------
-- Bound fields
-----------------------------------------------------------------------------------------

section
variable (context fields fields' : Fields) (name : String)

/-- Fields that are bound one after the other are bound at once. -/
theorem Fields.bind_append
    : Fields.bind (Fields.bind context fields) fields'
      = Fields.bind context (fields ++ fields') := by
  simp [Fields.bind, Json.Members.overlay]

/-- The last given value of a name that is bound is found in a context. A null is none: it neither
hides the value of a name nor adds one.
-/
theorem get?_bind
    : Json.Members.get? (Fields.bind context fields) name
      = (((fields.filter fun field => isGiven field.2 ∧ field.1 = name).getLast?.map Prod.snd).or
          (Json.Members.get? context name)) := by
  rw [Fields.bind, Json.Members.get?_overlay, Json.Members.last?, List.filter_filter]
  simp [Bool.and_comm]

end

-----------------------------------------------------------------------------------------
-- Refused notes
-----------------------------------------------------------------------------------------

/-- The error with which a note is refused. It does not depend on what is bound. -/
def refusal? (journal : Journal) (note : Note) : Option NoteError :=
  if journal.admits note.logger note.level then (reservedField? note.carried).map .overwrites
  else none

/-- The lines for a note with more fields bound, none where it is refused. -/
def linesWith (journal : Journal) (clock : Clock) (bound : Fields) (note : Note) : List Line :=
  ((journal.bind bound).emit clock note).toOption.getD []

section
variable (journal : Journal) (clock : Clock) (note : Note)

theorem refusal?_eq
    : journal.refusal? note
      = match journal.emit clock note with
        | .ok _ => none
        | .error error => some error := by
  unfold refusal? emit Note.record?
  by_cases admitted : journal.admits note.logger note.level = true
  · cases reservedField? note.carried with
    | some name => simp [admitted]
    | none => cases Template.fill? note.template note.arguments <;> simp [admitted]
  · simp [admitted]

/-- Only extra values can make a note one that is refused. -/
theorem refusal?_of_plain {note : Note} (plain : note.extra = [])
    : journal.refusal? note = none := by
  simp [refusal?, reservedField?_of_plain plain]

end

-----------------------------------------------------------------------------------------
-- Activities by the places of their notes
-----------------------------------------------------------------------------------------

/-- What an activity comes to by the places of its notes: each note with the fields that are bound
where it stands, what is bound at the end, and why the activity ended early.
-/
structure Scoped (ε : Type) where
  notes : List (Note × Fields)
  bound : Fields
  failure : Option (Failure ε)

/-- An activity by the places of its notes. What is bound inside a block is not passed on. -/
def Activity.scoped {ε : Type} (refusal? : Note → Option NoteError) : Activity ε → Fields → Scoped ε
  | .idle, bound => ⟨[], bound, none⟩
  | .note request, bound => ⟨[(request, bound)], bound, (refusal? request).map .refused⟩
  | .bind fields, bound => ⟨[], bound ++ fields, none⟩
  | .fail failure, bound => ⟨[], bound, some failure⟩
  | .within fields body, bound =>
      { body.scoped refusal? (bound ++ fields) with bound := bound }
  | .andThen first next, bound =>
      let before := first.scoped refusal? bound
      match before.failure with
      | some _ => before
      | none =>
          let after := next.scoped refusal? before.bound
          { after with notes := before.notes ++ after.notes }
  | .rescue body handler, bound =>
      let tried := body.scoped refusal? bound
      match tried.failure with
      | some failure =>
          let after := (handler failure).scoped refusal? tried.bound
          { after with notes := tried.notes ++ after.notes }
      | none => tried

/-- The play of an activity that is told by its places, on a journal as it was at the start. -/
def Scoped.played {ε : Type} (said : Scoped ε) (clock : Clock) (journal : Journal) : Played ε where
  journal := journal.bind said.bound
  lines := said.notes.flatMap fun (note, bound) => journal.linesWith clock bound note
  failure := said.failure

section
variable {ε : Type} (clock : Clock)

theorem play_note (journal : Journal) (bound : Fields) (request : Note)
    : (Activity.note request : Activity ε).play clock (journal.bind bound)
      = ((Activity.note request).scoped journal.refusal? bound).played clock journal := by
  have refused : journal.refusal? request = _ := refusal?_eq (journal.bind bound) clock request
  simp only [Activity.play, Activity.scoped, Scoped.played, refused, linesWith]
  cases emitted : (journal.bind bound).emit clock request <;> simp [emitted, Except.toOption]

/-- An activity is played as its places say, by induction on the activity. Inside a block the
journal differs in the contexts that it keeps for the blocks around it, which no record shows.
-/
theorem play_eq_scoped (activity : Activity ε) (journal : Journal) (bound : Fields)
    : activity.play clock (journal.bind bound)
      = (activity.scoped journal.refusal? bound).played clock journal := by
  induction activity generalizing journal bound with
  | idle => rfl
  | note request => exact play_note clock journal bound request
  | bind fields => simp [Activity.play, Activity.scoped, Scoped.played, bind, Fields.bind_append]
  | fail failure => rfl
  | within fields body ih =>
      let inner : Journal := { journal with outer := (journal.bind bound).context :: journal.outer }
      have entered : (journal.bind bound).enter fields = inner.bind (bound ++ fields) := by
        simp [enter, bind, Fields.bind_append, inner]
      rw [Activity.play, entered, ih]
      rfl
  | andThen first next ihFirst ihNext =>
      simp only [Activity.play, Activity.scoped, ihFirst]
      cases failure : (first.scoped journal.refusal? bound).failure with
      | some error => simp [Scoped.played, failure]
      | none => simp [Scoped.played, failure, ihNext]
  | rescue body handler ihBody ihHandler =>
      simp only [Activity.play, Activity.scoped, ihBody]
      cases failure : (body.scoped journal.refusal? bound).failure with
      | some error => simp [Scoped.played, failure, ihHandler]
      | none => simp [Scoped.played, failure]

end

-----------------------------------------------------------------------------------------
-- Passes
-----------------------------------------------------------------------------------------

/-- How an activity ends early that fails where its work does. -/
def failureOf {ε α : Type} (raise : Grid.ApplyError → ε)
    : Except Grid.ApplyError α → Option (Failure ε)
  | .ok _ => none
  | .error error => some (.raised (raise error))

/-- An activity leaves the journal as it is. All of its notes see the same fields over what was
bound before, and it ends early as told.
-/
structure Activity.StaysIn {ε : Type} (activity : Activity ε) (clock : Clock) (journal : Journal)
    (bound : Fields) (failure : Option (Failure ε)) : Prop where
  kept : (activity.play clock journal).journal = journal
  lines : ∃ notes : List Note,
    (activity.play clock journal).lines = notes.flatMap (journal.linesWith clock bound)
  failed : (activity.play clock journal).failure = failure

section
variable {ε : Type} (clock : Clock) (journal : Journal) (raise : Grid.ApplyError → ε)
  (pass : Grid.Pass) (formula : Compiled) (check : Grid.CancelCheck) (grid : Grid)
  (selected count : Int) (seed : Option Int)

/-- An activity is played from the start as its places say. -/
theorem play_eq_played (activity : Activity ε)
    : activity.play clock journal
      = (activity.scoped journal.refusal? []).played clock journal :=
  play_eq_scoped clock activity journal []

/-- Work that is refused before it begins has nothing to note. -/
theorem staysIn_raise (bound : Fields) (error : ε)
    : (Activity.raise error).StaysIn clock journal bound (some (.raised error)) :=
  ⟨rfl, ⟨[], rfl⟩, rfl⟩

/-- An event is noted before the work goes on. -/
theorem scoped_passNote (event : String) (fields bound : Fields) (next : Activity ε)
    : (Activity.andThen (.note (passNote event fields)) next).scoped journal.refusal? bound
      = { next.scoped journal.refusal? bound with
          notes :=
            (passNote event fields, bound) :: (next.scoped journal.refusal? bound).notes } := by
  have noted : journal.refusal? (passNote event fields) = none := refusal?_of_plain journal rfl
  simp only [Activity.scoped, noted, Option.map_none, List.singleton_append]

/-- The end of a pass notes what is bound in the block and passes nothing on. -/
theorem scoped_passEnd (bound : Fields) (result : Except Grid.ApplyError Grid)
    : ∃ notes : List Note,
        (passEnd raise result).scoped journal.refusal? bound
        = ⟨notes.map fun note => (note, bound), bound, failureOf raise result⟩ := by
  match result with
  | .ok _ =>
      let done := passNote "expr.apply.done" [("elapsed_ms", .integer 0)]
      have noted : journal.refusal? done = none := refusal?_of_plain journal rfl
      refine ⟨[done], ?_⟩
      simp only [passEnd, Activity.scoped, done, noted]
      rfl
  | .error error =>
      cases error
      case cancelled done total => exact ⟨[_], scoped_passNote journal _ _ bound _⟩
      all_goals exact ⟨[], rfl⟩

/-- A pass that has begun stays in the context that says what it is about. -/
theorem staysIn_passBody (context : Fields) (result : Except Grid.ApplyError Grid)
    : (passBody raise context selected seed result).StaysIn clock journal context
        (failureOf raise result) := by
  obtain ⟨notes, ended⟩ := scoped_passEnd journal raise context result
  let start := passNote "expr.apply.start"
    [("selected", .integer selected), ("seed", seedField seed)]
  have played : (passBody raise context selected seed result).play clock journal
      = Scoped.played ⟨(start :: notes).map fun note => (note, context), [], failureOf raise result⟩
          clock journal := by
    rw [play_eq_played, passBody, Activity.scoped, scoped_passNote, List.nil_append, ended]
    rfl
  exact ⟨congrArg Played.journal played,
    ⟨start :: notes, (congrArg Played.lines played).trans (List.flatMap_map _ _ _)⟩,
    congrArg Played.failure played⟩

theorem staysIn_singlePass
    : (singlePass raise pass formula grid selected count seed).StaysIn clock journal
        (passContext formula .singleFrame grid.frameCount count)
        (failureOf raise (Grid.reportSingle pass formula grid selected count).result) := by
  have reported : failureOf raise (Grid.reportSingle pass formula grid selected count).result
      = failureOf raise (Grid.applySingle pass formula.tree grid selected count) := by
    rw [Grid.reportSingle]
    cases Grid.applySingle pass formula.tree grid selected count <;> rfl
  rw [reported, singlePass]
  cases checked : Grid.checkFrame grid selected count with
  | error error =>
      rw [Grid.applySingle, checked]
      exact staysIn_raise clock journal _ (raise error)
  | ok choice => exact staysIn_passBody clock journal raise selected seed _ _

theorem staysIn_multiPass
    : (multiPass raise pass formula check grid selected count seed).StaysIn clock journal
        (passContext formula .multiFrame grid.frameCount count)
        (failureOf raise (Grid.reportMulti pass formula check grid selected count).result) := by
  have reported : failureOf raise (Grid.reportMulti pass formula check grid selected count).result
      = failureOf raise (Grid.applyMulti pass formula.tree check grid selected count).1 := by
    rw [Grid.reportMulti]
    rcases Grid.applyMulti pass formula.tree check grid selected count with ⟨_ | _, _⟩ <;> rfl
  rw [reported, multiPass]
  cases checked : Grid.checkFrames grid selected count with
  | error error =>
      rw [Grid.applyMulti, checked]
      exact staysIn_raise clock journal _ (raise error)
  | ok chosen => exact staysIn_passBody clock journal raise selected seed _ _

end

-----------------------------------------------------------------------------------------
-- Whole activities
-----------------------------------------------------------------------------------------

/-- A record shows the context in which the activity began, overlaid with all fields but nulls that
are bound around the place of its note, in their order: of each name it has the last value. After a
block, however that ends, the journal is the one in which it was entered, though more was bound
inside. So it is after a pass over a grid, which ends early where its report tells of an error, and
of which all records show what it is about.
-/
theorem records_show_enclosing_fields {ε : Type} (clock : Clock) (journal : Journal)
    (activity : Activity ε)
    : let said := activity.scoped journal.refusal? []
      let played := activity.play clock journal
      (∀ fields, ((Activity.within fields activity).play clock journal).journal = journal)
      ∧ played.journal = journal.bind said.bound
      ∧ played.lines = said.notes.flatMap (fun (note, bound) => journal.linesWith clock bound note)
      ∧ played.failure = said.failure
      ∧ (∀ bound name,
          Json.Members.get? (journal.bind bound).context name
          = ((bound.filter fun field => isGiven field.2 ∧ field.1 = name).getLast?.map Prod.snd).or
              (Json.Members.get? journal.context name))
      ∧ ∀ (raise : Grid.ApplyError → ε) pass formula check grid selected count seed,
          (singlePass raise pass formula grid selected count seed).StaysIn clock journal
            (passContext formula .singleFrame grid.frameCount count)
            (failureOf raise (Grid.reportSingle pass formula grid selected count).result)
          ∧ (multiPass raise pass formula check grid selected count seed).StaysIn clock journal
              (passContext formula .multiFrame grid.frameCount count)
              (failureOf raise
                (Grid.reportMulti pass formula check grid selected count).result) := by
  intro said played
  have told : played = said.played clock journal := play_eq_played clock journal activity
  refine ⟨fun fields => ?_, congrArg Played.journal told, congrArg Played.lines told,
    congrArg Played.failure told, fun bound name => get?_bind journal.context bound name, ?_⟩
  · rw [play_eq_played]
    rfl
  · intro raise pass formula check grid selected count seed
    exact ⟨staysIn_singlePass clock journal raise pass formula grid selected count seed,
      staysIn_multiPass clock journal raise pass formula check grid selected count seed⟩

/-- A null inside a block does not hide a field, and what is bound there is gone after an error. -/
example (clock : Clock) (journal : Journal)
    : let inside := Activity.andThen (.bind [("mode", .text "fast"), ("expr", .null)]) (.raise ())
      (Activity.within [("expr", .text "in")] inside).play clock journal
      = ⟨journal, [], some (.raised ())⟩ :=
  rfl

end Wavetable.Journal
