import Mathlib.Data.List.Perm.Basic
import Wavetable.Catalogue.Turns
import Wavetable.Proofs.Catalogue.Consistency

/-!
Favorites over time. An edit turns the flag of the entry that it names and of no other, and an
entry ceases to be a favorite for one of a few causes only.
-/

namespace Wavetable.Catalogue

/-- The identifier of an entry, and whether it is a favorite. -/
def Entry.flag (entry : Entry) : Uuid × Bool :=
  (entry.id, entry.isFavorite)

/-- The number of entries with an identifier that are favorites. It may be more than one, since a
state is loaded whatever identifiers it gives.
-/
def Store.favored (store : Store) (id : Uuid) : Nat :=
  (store.every.map Entry.flag).count (id, true)

/-- The entries of two stores are the same, those of the user in any order. -/
structure Store.SameEntries (left right : Store) : Prop where
  singles : left.singles = right.singles
  multis : left.multis = right.multis
  user : left.user.Perm right.user

/-- An edit that turns the flag of an entry with an identifier, or that removes one. -/
def Edit.concerns (id : Uuid) : Edit → Bool
  | .toggle other => other = id
  | .delete other => other = id
  | _ => false

/-- Why there may be fewer favorites with an identifier after a turn than before it. -/
inductive Turn.Unmarks (session : Session) (id : Uuid) : Turn → Prop
  | toggled : Unmarks session id (.own (.edit (.toggle id)))
  | deleted : Unmarks session id (.own (.edit (.delete id)))
  | unlisted {content state} (visible : session.disk.visibleState = .text content)
    (read : State.ofText content = .ok state) (absent : id ∉ state.favorites)
    : Unmarks session id (.own .loadUser)
  | dropped {content state} (visible : session.disk.visibleState = .text content)
    (read : State.ofText content = .ok state)
    (fewer : state.givenIds.count id < (session.store.user.map (·.id)).count id)
    : Unmarks session id (.own .loadUser)
  | reloaded {entry} (bundled : entry ∈ session.store.bundled)
    (favorite : entry.flag = (id, true))
    : Unmarks session id (.own .loadBundled)

-----------------------------------------------------------------------------------------
-- Counting favorites
-----------------------------------------------------------------------------------------

section
variable {store : Store} {id : Uuid}

theorem Store.favored_eq (store : Store) (id : Uuid)
    : store.favored id
      = (store.bundled.map Entry.flag).count (id, true)
        + (store.user.map Entry.flag).count (id, true) := by
  rw [favored, every, List.map_append, List.count_append]

theorem Store.SameEntries.refl (store : Store) : store.SameEntries store :=
  ⟨rfl, rfl, .rfl⟩

theorem Store.SameEntries.favored_eq {left right : Store} (same : left.SameEntries right)
    (id : Uuid)
    : left.favored id = right.favored id := by
  rw [Store.favored_eq, Store.favored_eq, bundled, bundled, same.singles, same.multis,
    (same.user.map _).count_eq]

/-- Entries with an identifier are at least as many as the favorites with it. -/
theorem count_flag_le (entries : List Entry) (id : Uuid)
    : (entries.map Entry.flag).count (id, true) ≤ (entries.map (·.id)).count id := by
  induction entries with
  | nil => exact Nat.le_refl _
  | cons entry rest ih =>
      simp only [List.map_cons, List.count_cons, Entry.flag]
      have first : (if ((entry.id, entry.isFavorite) == (id, true)) = true then 1 else 0)
          ≤ (if (entry.id == id) = true then 1 else 0) := by
        by_cases named : entry.id = id
        · simp only [named, beq_self_eq_true, if_true]
          split <;> decide
        · simp [named]
      exact Nat.add_le_add ih first

/-- Where all entries with an identifier are favorites, they are as many. -/
theorem count_flag_eq {entries : List Entry} {id : Uuid}
    (marked : ∀ entry ∈ entries, entry.id = id → entry.isFavorite = true)
    : (entries.map Entry.flag).count (id, true) = (entries.map (·.id)).count id := by
  induction entries with
  | nil => rfl
  | cons entry rest ih =>
      obtain ⟨here, others⟩ := List.forall_mem_cons.mp marked
      simp only [List.map_cons, List.count_cons, Entry.flag] at ih ⊢
      rw [ih others]
      by_cases named : entry.id = id
      · simp [named, here named]
      · simp [named]

/-- Setting the flag of another entry changes no favorite with an identifier. -/
theorem count_flag_markFirst {other : Uuid} (apart : other ≠ id) (flag : Bool)
    (entries : List Entry)
    : ((markFirst other flag entries).map Entry.flag).count (id, true)
      = (entries.map Entry.flag).count (id, true) := by
  induction entries with
  | nil => rfl
  | cons entry rest ih =>
      unfold markFirst
      split
      next named =>
        have different : entry.id ≠ id := named ▸ apart
        simp [Entry.flag, Entry.withFavorite, different]
      next => simp only [List.map_cons, List.count_cons, ih]

theorem Store.favored_mark {other : Uuid} (apart : other ≠ id) (store : Store) (flag : Bool)
    : (store.mark other flag).favored id = store.favored id := by
  unfold mark
  split
  next =>
    simp only [favored_eq, bundled, List.map_append, List.count_append,
      count_flag_markFirst apart]
  next =>
    split
    next =>
      simp only [favored_eq, bundled, List.map_append, List.count_append,
        count_flag_markFirst apart]
    next => simp only [favored_eq, bundled, count_flag_markFirst apart]

/-- The favorites among the bundled entries and among the user's count apart. -/
theorem Store.favored_withUser (store : Store) {user : List Entry}
    (same : (user.map Entry.flag).count (id, true)
      = (store.user.map Entry.flag).count (id, true))
    : (store.withUser user).favored id = store.favored id := by
  rw [favored_eq, favored_eq]
  exact congrArg _ same

end

-----------------------------------------------------------------------------------------
-- Edits
-----------------------------------------------------------------------------------------

section
variable {outside : Outside} {session : Session} {id : Uuid} {edit : Edit} {change : Change Unit}

/-- Taking an edit back leaves the entries as they were, but for the order of the user's own. -/
theorem Edit.Makes.undo_sameEntries (makes : edit.Makes outside session change)
    : (change.undo change.session.store).SameEntries session.store := by
  cases makes with
  | @added _ _ _ _ labels given =>
      let entry := labels.newEntry (outside.ids session.drawn) outside.now
      have last : ((session.store.user ++ [entry]).erase entry).Perm session.store.user := by
        simpa using (List.perm_append_singleton entry session.store.user).erase entry
      exact ⟨rfl, rfl, last⟩
  | replaced found given =>
      have restored := Session.replacing_restores found
      exact (restored _).symm ▸ .refl _
  | removed found =>
      have restored := Session.removing_restores found
      exact restored.symm ▸ .refl _
  | flagged found =>
      have restored := Session.flagging_restores found
      exact restored.symm ▸ .refl _

/-- The formula that is removed has the identifier that is asked for. -/
theorem Edit.removes_named {other : Uuid}
    (allowed : (Edit.delete other).change outside session = .ok change)
    : ∃ (index : Nat) (inside : index < session.store.user.length),
        session.store.user[index].id = other
        ∧ change = (session.removing index session.store.user[index]).withoutResult := by
  simp only [Edit.change, removal, map_eq_ok, bind_eq_ok, pure_eq_ok, Prod.exists] at allowed
  obtain ⟨_, ⟨index, entry, found, rfl⟩, rfl⟩ := allowed
  obtain ⟨-, -, -, -, named, -⟩ := Store.findUser_first found
  obtain ⟨inside, rfl⟩ := List.getElem?_eq_some_iff.mp (Store.findUser_ok found)
  exact ⟨index, inside, named, rfl⟩

/-- An edit in memory leaves the favorites with an identifier that it does not concern. -/
theorem Edit.favored_of_change (allowed : edit.change outside session = .ok change)
    (apart : edit.concerns id = false)
    : change.session.store.favored id = session.store.favored id := by
  cases edit with
  | add =>
      cases Edit.makes_of_change allowed with
      | added => exact session.store.favored_withUser (by simp [Entry.flag, Labels.newEntry])
  | update =>
      cases Edit.makes_of_change allowed with
      | replaced found =>
          obtain ⟨inside, rfl⟩ := List.getElem?_eq_some_iff.mp found
          exact session.store.favored_withUser
            (congrArg _ (map_set_same Entry.flag inside rfl))
  | delete other =>
      obtain ⟨index, inside, named, rfl⟩ := Edit.removes_named allowed
      have different : session.store.user[index].flag ≠ (id, true) := fun same =>
        of_decide_eq_false apart (named.symm.trans (congrArg Prod.fst same))
      have others := (List.getElem_cons_eraseIdx_perm inside).map Entry.flag
      refine session.store.favored_withUser ?_
      rw [← others.count_eq, List.map_cons, List.count_cons_of_ne different]
  | toggle other =>
      cases Edit.makes_of_change allowed with
      | flagged => exact Store.favored_mark (of_decide_eq_false apart) _ _

/-- Saving leaves the entries alone. -/
theorem save_store (session : Session) : (save session).2.store = session.store := by
  unfold save
  split
  next => rfl
  next => split <;> rfl

/-- An edit that is committed stands, or it is taken back. -/
theorem Change.commit_store (change : Change Unit)
    : change.commit.2.store = change.session.store
      ∨ change.commit.2.store = change.undo change.session.store := by
  rw [← save_store change.session]
  rcases change.commit_cases with stands | undone
  · exact .inl (congrArg Session.store stands)
  · exact .inr (congrArg Session.store undone)

/-- An edit that is allowed stands, or the entries are as before. -/
theorem Edit.store_perform (allowed : edit.change outside session = .ok change)
    : (edit.perform outside session).2.store = change.session.store
      ∨ (edit.perform outside session).2.store.SameEntries session.store := by
  have makes := Edit.makes_of_change allowed
  rw [edit.perform_eq, allowed]
  rcases change.commit_store with stands | undone
  · exact .inl stands
  · exact .inr (undone ▸ makes.undo_sameEntries)

/-- An edit leaves the favorites with an identifier that it does not concern, whether it fails or
not.
-/
theorem Edit.favored_perform (apart : edit.concerns id = false)
    : (edit.perform outside session).2.store.favored id = session.store.favored id := by
  cases allowed : edit.change outside session with
  | error => rw [edit.perform_eq, allowed, commitIfAllowed]
  | ok change =>
      rcases Edit.store_perform allowed with stands | same
      · exact (congrArg (·.favored id) stands).trans (Edit.favored_of_change allowed apart)
      · exact same.favored_eq id

end

-----------------------------------------------------------------------------------------
-- Loading
-----------------------------------------------------------------------------------------

section
variable {outside : Outside} {session : Session} {id : Uuid}

/-- With a state that lists an identifier, every entry with it becomes a favorite. -/
theorem favored_takeState {state : State} (listed : id ∈ state.favorites)
    : (takeState outside session state).store.favored id
      = (takeState outside session state).store.ids.count id := by
  refine count_flag_eq fun entry member named => ?_
  subst named
  simp only [takeState, Store.every, Store.bundled, Store.withState, List.mem_append,
    List.mem_map] at member
  rcases member with (⟨_, -, rfl⟩ | ⟨_, -, rfl⟩) | ⟨_, -, rfl⟩
  · exact List.contains_iff_mem.mpr listed
  · exact List.contains_iff_mem.mpr listed
  · exact Bool.or_eq_true_iff.mpr (.inr (List.contains_iff_mem.mpr listed))

/-- Reading the bundled files anew leaves the user's own formulas alone. -/
theorem loadBundled_user (outside : Outside) (session : Session)
    : (loadBundled outside session).2.store.user = session.store.user := by
  unfold loadBundled
  split
  next => rfl
  next => dsimp only; split <;> rfl

theorem unmarks_of_loadUser_loss
    (lost : (loadUserState outside session).2.store.favored id < session.store.favored id)
    : Turn.Unmarks session id (.own .loadUser) := by
  unfold loadUserState at lost
  split at lost
  next => exact absurd lost (Nat.lt_irrefl _)
  next =>
    split at lost
    next => exact absurd lost (Nat.lt_irrefl _)
    next => exact absurd lost (Nat.lt_irrefl _)
    next => exact absurd lost (Nat.lt_irrefl _)
    next content visible =>
      split at lost
      next => exact absurd lost (Nat.lt_irrefl _)
      next state read =>
        by_cases listed : id ∈ state.favorites
        · -- Every entry with the identifier is a favorite afterwards, so some formula is missing.
          refine .dropped visible read ?_
          have given := (givenIds_sublist outside state.entries session.drawn).count_le id
          have bundled := count_flag_le session.store.bundled id
          have own := count_flag_le session.store.user id
          rw [favored_takeState listed, takeState, Store.ids_withState, List.count_append,
            Store.favored_eq] at lost
          rw [State.givenIds]
          omega
        · exact .unlisted visible read listed

theorem unmarks_of_loadBundled_loss
    (lost : (loadBundled outside session).2.store.favored id < session.store.favored id)
    : Turn.Unmarks session id (.own .loadBundled) := by
  rw [Store.favored_eq, Store.favored_eq, loadBundled_user] at lost
  have some : 0 < (session.store.bundled.map Entry.flag).count (id, true) := by omega
  obtain ⟨entry, bundled, favorite⟩ := List.mem_map.mp (List.count_pos_iff.mp some)
  exact .reloaded bundled favorite

-----------------------------------------------------------------------------------------
-- Histories
-----------------------------------------------------------------------------------------

/-- A turn after which there are fewer favorites with an identifier is one of those that can be the
cause.
-/
theorem Turn.unmarks_of_loss {turn : Turn}
    (lost : (turn.perform outside session).store.favored id < session.store.favored id)
    : turn.Unmarks session id := by
  cases turn with
  | own event =>
      cases event with
      | edit edit =>
          cases concerned : edit.concerns id with
          | false =>
              have kept : (edit.perform outside session).2.store.favored id
                  = session.store.favored id := Edit.favored_perform concerned
              exact absurd lost (kept ▸ Nat.lt_irrefl _)
          | true =>
              cases edit with
              | add => contradiction
              | update => contradiction
              | delete other =>
                  obtain rfl : other = id := of_decide_eq_true concerned
                  exact .deleted
              | toggle other =>
                  obtain rfl : other = id := of_decide_eq_true concerned
                  exact .toggled
      | save =>
          have kept := congrArg (·.favored id) (save_store session)
          exact absurd lost (kept ▸ Nat.lt_irrefl _)
      | loadUser => exact unmarks_of_loadUser_loss lost
      | loadBundled => exact unmarks_of_loadBundled_loss lost
      | fill => exact absurd lost (Nat.lt_irrefl _)
  | putBundle => exact absurd lost (Nat.lt_irrefl _)
  | putState => exact absurd lost (Nat.lt_irrefl _)
  | block => exact absurd lost (Nat.lt_irrefl _)

/-- Where there are fewer favorites with an identifier after a history, one of its turns is the
cause, by induction on the history.
-/
theorem Session.unmarks_of_loss {ids : Nat → Uuid} {history : Turns}
    (lost : (session.afterTurns ids history).store.favored id < session.store.favored id)
    : ∃ earlier moment later, history = earlier ++ moment :: later
        ∧ moment.2.Unmarks (session.afterTurns ids earlier) id := by
  induction history generalizing session with
  | nil => exact absurd lost (Nat.lt_irrefl _)
  | cons first rest ih =>
      by_cases here : (first.2.perform ⟨ids, first.1⟩ session).store.favored id
          < session.store.favored id
      · exact ⟨[], first, rest, rfl, Turn.unmarks_of_loss here⟩
      · obtain ⟨earlier, moment, later, rfl, cause⟩ :=
          ih (lost.trans_le (Nat.le_of_not_lt here))
        exact ⟨first :: earlier, moment, later, rfl, cause⟩

end

end Wavetable.Catalogue
