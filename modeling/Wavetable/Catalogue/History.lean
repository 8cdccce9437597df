import Wavetable.Catalogue.Store

/-!
What an open catalogue goes through: edits by its user, saving, loading, and a disk that fills up
and gets room again.
-/

namespace Wavetable.Catalogue

/-- An edit of the user. -/
inductive Edit
  | add (expression name category : String) (isMultiFrame : Bool)
  | update (id : Uuid) (expression name category : String)
  | delete (id : Uuid)
  | toggle (id : Uuid)
  deriving Repr, DecidableEq

def Change.withoutResult (change : Change α) : Change Unit :=
  { change with result := () }

/-- An edit as it stands in memory before it is saved, if it is allowed. -/
def Edit.change (outside : Outside) (session : Session) : Edit → Except Error (Change Unit)
  | .add expression name category isMultiFrame =>
      (addition outside session expression name category isMultiFrame).map .withoutResult
  | .update id expression name category =>
      (replacement outside session id expression name category).map .withoutResult
  | .delete id => (removal session id).map .withoutResult
  | .toggle id => (flagChange session id).map .withoutResult

def Outcome.withoutResult (outcome : Outcome α) : Outcome Unit :=
  (outcome.1.map fun _ => (), outcome.2)

def Edit.perform (outside : Outside) (session : Session) : Edit → Outcome Unit
  | .add expression name category isMultiFrame =>
      (Catalogue.add outside session expression name category isMultiFrame).withoutResult
  | .update id expression name category =>
      (Catalogue.update outside session id expression name category).withoutResult
  | .delete id => Catalogue.delete session id
  | .toggle id => (toggleFavorite session id).withoutResult

/-- What may happen to an open catalogue, or to its disk. -/
inductive Event
  | edit (edit : Edit)
  | save
  | loadUser
  | loadBundled
  | fill (full : Bool)
  deriving Repr, DecidableEq

def Event.perform (outside : Outside) (session : Session) : Event → Outcome Unit
  | .edit e => e.perform outside session
  | .save => Catalogue.save session
  | .loadUser => loadUserState outside session
  | .loadBundled => Catalogue.loadBundled outside session
  | .fill full => (.ok (), { session with disk := { session.disk with full := full } })

/-- The event writes the state of the user if it succeeds. -/
def Event.isSaved : Event → Bool
  | .edit _ => true
  | .save => true
  | _ => false

/-- Events with the times at which they happen. -/
abbrev History := List (Timestamp × Event)

/-- The catalogue after events, one after the other. -/
def Session.after (ids : Nat → Uuid) (session : Session) : History → Session
  | [] => session
  | (now, event) :: rest => (event.perform ⟨ids, now⟩ session).2.after ids rest

end Wavetable.Catalogue
