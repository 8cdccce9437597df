import Mathlib.Data.List.InsertIdx
import Wavetable.Proofs.Catalogue.Edits

/-!
Edits that cannot be saved. Taking back an edit restores the store, and where a save fails the
disk is as it was. Where the directory of the state is blocked, though, the edit is not taken back.
-/

namespace Wavetable.Catalogue

-----------------------------------------------------------------------------------------
-- Flags
-----------------------------------------------------------------------------------------

/-- Setting a flag leaves what does not depend on it, by induction up to the entry that is set. -/
theorem map_markFirst {α : Type} {part : Entry → α}
    (free : ∀ (entry : Entry) flag, part (entry.withFavorite flag) = part entry) (id : Uuid)
    (flag : Bool) (entries : List Entry)
    : (markFirst id flag entries).map part = entries.map part := by
  induction entries with
  | nil => rfl
  | cons entry rest ih =>
      unfold markFirst
      split
      next => rw [List.map_cons, free, List.map_cons]
      next => rw [List.map_cons, ih, List.map_cons]

/-- Setting a flag leaves the identifiers as they are. -/
@[simp]
theorem map_id_markFirst (id : Uuid) (flag : Bool) (entries : List Entry)
    : (markFirst id flag entries).map (·.id) = entries.map (·.id) :=
  map_markFirst (fun _ _ => rfl) id flag entries

/-- Whether an identifier is there depends on the identifiers alone. -/
theorem any_id_congr {left right : List Entry} (same : left.map (·.id) = right.map (·.id))
    (id : Uuid)
    : left.any (·.id = id) = right.any (·.id = id) := by
  have h := congrArg (List.any · (· = id)) same
  simpa [List.any_map, Function.comp_def] using h

/-- The flag that is set last counts, by induction up to the first entry with the identifier. -/
theorem markFirst_markFirst (id : Uuid) (before after : Bool) (entries : List Entry)
    : markFirst id after (markFirst id before entries) = markFirst id after entries := by
  induction entries with
  | nil => rfl
  | cons entry rest ih =>
      by_cases named : entry.id = id
      · simp [markFirst, named, Entry.withFavorite]
      · simp [markFirst, named, ih]

/-- The flag is set in the first part that has an entry with the identifier. -/
theorem markFirst_append (id : Uuid) (flag : Bool) (left right : List Entry)
    : markFirst id flag (left ++ right)
      = if left.any (·.id = id) then markFirst id flag left ++ right
        else left ++ markFirst id flag right := by
  induction left with
  | nil => simp
  | cons first rest ih =>
      by_cases named : first.id = id
      · simp [markFirst, named]
      · simp only [List.cons_append, markFirst, named, if_false, ih, List.any_cons, decide_false,
          Bool.false_or]
        split <;> rfl

/-- Of all entries of the store the first one with the identifier has its flag set. -/
theorem Store.every_mark (store : Store) (id : Uuid) (flag : Bool)
    : (store.mark id flag).every = markFirst id flag store.every := by
  simp only [mark, every, bundled, markFirst_append, List.any_append, Bool.or_eq_true]
  by_cases single : store.singles.any (·.id = id)
  · simp [single]
  · by_cases multi : store.multis.any (·.id = id)
    · simp [single, multi]
    · simp [single, multi]

theorem Store.mark_mark (store : Store) (id : Uuid) (before after : Bool)
    : (store.mark id before).mark id after = store.mark id after := by
  simp only [mark]
  by_cases single : store.singles.any (·.id = id)
  · simp only [single, any_id_congr (map_id_markFirst id before store.singles), if_true,
      markFirst_markFirst]
  · by_cases multi : store.multis.any (·.id = id)
    · simp only [single, multi, any_id_congr (map_id_markFirst id before store.multis), if_true,
        if_false, Bool.false_eq_true, markFirst_markFirst]
    · simp only [single, multi, if_false, Bool.false_eq_true, markFirst_markFirst]

/-- Setting the flag that the first entry has changes nothing. -/
theorem markFirst_same {id : Uuid} {entry : Entry} {entries : List Entry}
    (found : entries.find? (·.id = id) = some entry)
    : markFirst id entry.isFavorite entries = entries := by
  induction entries with
  | nil => rfl
  | cons first rest ih =>
      by_cases named : first.id = id
      · obtain rfl : first = entry := by simpa [named] using found
        rw [markFirst, if_pos named, Entry.withFavorite]
      · have found : rest.find? (·.id = id) = some entry := by simpa [named] using found
        simp [markFirst, named, ih found]

/-- An identifier that is found among more entries is found in the first part that has it. -/
theorem find?_id_append {id : Uuid} {left right : List Entry}
    : (left ++ right).find? (·.id = id)
      = if left.any (·.id = id) then left.find? (·.id = id) else right.find? (·.id = id) := by
  induction left with
  | nil => simp
  | cons first rest ih =>
      by_cases named : first.id = id
      · simp [named]
      · simpa [named] using ih

theorem Store.mark_same {store : Store} {id : Uuid} {entry : Entry}
    (found : store.get? id = some entry)
    : store.mark id entry.isFavorite = store := by
  simp only [get?, every, bundled, List.append_assoc, find?_id_append] at found
  unfold mark
  split
  next single =>
    rw [if_pos single] at found
    rw [markFirst_same found]
  next single =>
    rw [if_neg single] at found
    split
    next multi =>
      rw [if_pos multi] at found
      rw [markFirst_same found]
    next multi =>
      rw [if_neg multi] at found
      rw [markFirst_same found]

-----------------------------------------------------------------------------------------
-- Changes taken back
-----------------------------------------------------------------------------------------

/-- What takes a change back restores the store. -/
def Change.Restores {α : Type} (change : Change α) (store : Store) : Prop :=
  change.undo change.session.store = store

/-- A new formula is the first one that is equal to it, so that no other one is taken out. -/
theorem Session.adding_restores {session : Session} {entry : Entry}
    (fresh : entry ∉ session.store.user)
    : (session.adding entry).Restores session.store := by
  simp [Change.Restores, adding, Store.withUser, List.erase_append_right _ fresh]

theorem Session.replacing_restores {session : Session} {index : Nat} {current : Entry}
    (found : session.store.user[index]? = some current) (entry : Entry)
    : (session.replacing index current entry).Restores session.store := by
  have back : session.store.user.set index current = session.store.user := by
    obtain ⟨inside, rfl⟩ := List.getElem?_eq_some_iff.mp found
    exact List.set_getElem_self inside
  simp [Change.Restores, replacing, withStore, Store.withUser, List.set_set, back]

theorem Session.removing_restores {session : Session} {index : Nat} {entry : Entry}
    (found : session.store.user[index]? = some entry)
    : (session.removing index entry).Restores session.store := by
  obtain ⟨inside, rfl⟩ := List.getElem?_eq_some_iff.mp found
  simp [Change.Restores, removing, withStore, Store.withUser, List.insertIdx_eraseIdx_getElem]

theorem Session.flagging_restores {session : Session} {id : Uuid} {entry : Entry}
    (found : session.store.get? id = some entry)
    : (session.flagging id entry.isFavorite).Restores session.store := by
  simp only [Change.Restores, flagging, withStore, Store.mark_mark, Store.mark_same found]

/-- Every change of an edit can be taken back, by the four forms of changes. An identifier that is
drawn for it has to be a new one.
-/
theorem Edit.Makes.restores {outside : Outside} {session : Session} {edit : Edit}
    {change : Change Unit} (makes : edit.Makes outside session change)
    (fresh
      : session.drawn < change.session.drawn
        → ∀ entry ∈ session.store.user, entry.id ≠ outside.ids session.drawn)
    : change.Restores session.store := by
  cases makes with
  | added given =>
      exact Session.adding_restores fun known => fresh (Nat.lt_succ_self _) _ known rfl
  | replaced found given => exact Session.replacing_restores found _
  | removed found => exact Session.removing_restores found
  | flagged found => exact Session.flagging_restores found

-----------------------------------------------------------------------------------------
-- Failed saves
-----------------------------------------------------------------------------------------

/-- Committing a change that cannot be saved fails as saving does and leaves the disk alone. The
store is restored, except under a blocked directory.
-/
theorem Change.commit_of_failed_save {α : Type} {change : Change α} {store : Store}
    {error : Error} (restores : change.Restores store)
    (failed : (save change.session).1 = .error error)
    : change.commit.1 = .error error
      ∧ change.commit.2.disk = change.session.disk
      ∧ change.commit.2.store
        = if change.session.disk.blocked then change.session.store else store := by
  obtain ⟨left, saved⟩ : ∃ left, save change.session = (.error error, left) :=
    ⟨(save change.session).2, Prod.ext failed rfl⟩
  obtain ⟨rfl, stays⟩ := save_error saved
  simp only [commit, saved, stays]
  split
  next => exact ⟨rfl, rfl, rfl⟩
  next => exact ⟨rfl, rfl, restores⟩

/-- No change touches the disk before it is saved. -/
theorem Edit.Makes.disk_eq {outside : Outside} {session : Session} {edit : Edit}
    {change : Change Unit} (makes : edit.Makes outside session change)
    : change.session.disk = session.disk := by
  cases makes <;> rfl

theorem checkMode_variable {expression : String}
    (read : Formula.compile expression = .ok (.ofTree expression (.var "x")))
    : checkMode expression false = .ok () := by
  simp [checkMode, read, Formula.Compiled.mode, Formula.Compiled.usesFrame,
    Formula.Compiled.ofTree, Formula.Expr.mentions, Formula.Expr.walk, Formula.Expr.walkAll,
    Formula.Expr.children, Formula.Expr.variableName?, Formula.Mode.ofFlag]

/-- A formula that is a single variable, added to a catalogue, is an allowed change. -/
theorem addition_variable (outside : Outside) (session : Session)
    : (Edit.add "x" "N" "Mine" false).change outside session
      = .ok (session.adding
          (Labels.newEntry ⟨"x", "N", "Mine"⟩ (outside.ids session.drawn) outside.now)
          ).withoutResult := by
  have single : checkMode "x" false = .ok () := checkMode_variable rfl
  have labelled : checkLabels "x" "N" "Mine" = .ok ⟨"x", "N", "Mine"⟩ := rfl
  simp only [Edit.change, addition, single, labelled]
  rfl

def openingTime : Timestamp :=
  ⟨2024, 1, 1, 0, 0, 0, 0, some 0⟩

/-- A catalogue that is opened on a disk, with identifiers that count up. -/
def openedOn (disk : Disk) : Session :=
  (openSession ⟨.mk, openingTime⟩ ⟨"library", some "state.json"⟩ disk 0 true).2

end Wavetable.Catalogue
