import Wavetable.Journal.Basic

/-!
Activities: what a piece of work notes, the blocks with a context of their own in which it does
so, and the errors it fails with. A block is left with the context in which it was entered,
however it ends.
-/

namespace Wavetable.Journal

/-- Why an activity ends early: a record is refused, or the work itself fails. -/
inductive Failure (ε : Type)
  | refused (error : NoteError)
  | raised (error : ε)
  deriving Repr, DecidableEq

/-- A piece of work as a journal sees it. -/
inductive Activity (ε : Type)
  | idle
  | note (request : Note)
  | bind (fields : Fields)
  | fail (failure : Failure ε)
  | within (fields : Fields) (body : Activity ε)
  | andThen (first next : Activity ε)
  | rescue (body : Activity ε) (handler : Failure ε → Activity ε)

/-- The work itself fails. -/
def Activity.raise {ε : Type} (error : ε) : Activity ε :=
  .fail (.raised error)

/-- A played activity: the journal afterwards, what was written, and why it ended early. -/
structure Played (ε : Type) where
  journal : Journal
  lines : List Line
  failure : Option (Failure ε)

/-- An activity with all that it writes. -/
def Activity.play {ε : Type} (clock : Clock) : Activity ε → Journal → Played ε
  | .idle, journal => ⟨journal, [], none⟩
  | .note request, journal =>
      match journal.emit clock request with
      | .ok lines => ⟨journal, lines, none⟩
      | .error error => ⟨journal, [], some (.refused error)⟩
  | .bind fields, journal => ⟨journal.bind fields, [], none⟩
  | .fail failure, journal => ⟨journal, [], some failure⟩
  | .within fields body, journal =>
      let inner := body.play clock (journal.enter fields)
      { inner with journal := inner.journal.leave }
  | .andThen first next, journal =>
      let before := first.play clock journal
      match before.failure with
      | some _ => before
      | none =>
          let after := next.play clock before.journal
          { after with lines := before.lines ++ after.lines }
  | .rescue body handler, journal =>
      let tried := body.play clock journal
      match tried.failure with
      | some failure =>
          let after := (handler failure).play clock tried.journal
          { after with lines := tried.lines ++ after.lines }
      | none => tried

/-- Activities in order. -/
def Activity.sequence {ε : Type} (activities : List (Activity ε)) : Activity ε :=
  activities.foldr .andThen .idle

end Wavetable.Journal
