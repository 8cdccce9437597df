import Wavetable.Catalogue.History
import Wavetable.Proofs.Attempt

/-!
What an edit does in memory and what saving does on the disk. An edit that is allowed has one of
four forms, and a write either puts a text in the place of the state or leaves the disk as it is.
-/

namespace Wavetable.Catalogue

-----------------------------------------------------------------------------------------
-- Edits
-----------------------------------------------------------------------------------------

/-- The changes that an edit may make. -/
inductive Edit.Makes (outside : Outside) (session : Session) : Edit → Change Unit → Prop
  | added {expression name category isMultiFrame} {labels : Labels}
    (given : Labels.ofTexts expression name category = .ok labels)
    : Makes outside session (.add expression name category isMultiFrame)
        (session.adding
          (labels.newEntry (outside.ids session.drawn) outside.now)).withoutResult
  | replaced {id expression name category index current} {labels : Labels}
    (found : session.store.user[index]? = some current)
    (given : Labels.ofTexts expression name category = .ok labels)
    : Makes outside session (.update id expression name category)
        (session.replacing index current (current.relabel labels outside.now)).withoutResult
  | removed {id index entry} (found : session.store.user[index]? = some entry)
    : Makes outside session (.delete id) (session.removing index entry).withoutResult
  | flagged {id entry} (found : session.store.get? id = some entry)
    : Makes outside session (.toggle id) (session.flagging id entry.isFavorite).withoutResult

theorem map_eq_ok {ε α β : Type} {attempt : Except ε α} {f : α → β} {result : β}
    : attempt.map f = .ok result ↔ ∃ x, attempt = .ok x ∧ f x = result := by
  cases attempt <;> simp [Except.map]

theorem checkLabels_ok {expression name category : String} {labels : Labels}
    (passed : checkLabels expression name category = .ok labels)
    : Labels.ofTexts expression name category = .ok labels := by
  unfold checkLabels at passed
  split at passed
  next given =>
    obtain rfl := Except.ok.inj passed
    exact given
  next => contradiction

theorem Store.findUser_ok {store : Store} {id : Uuid} {index : Nat} {entry : Entry}
    (found : store.findUser id = .ok (index, entry))
    : store.user[index]? = some entry := by
  unfold findUser at found
  split at found
  next => contradiction
  next place _ =>
    split at found
    next => contradiction
    next there =>
      obtain ⟨rfl, rfl⟩ := Prod.mk.inj (Except.ok.inj found)
      exact there

/-- The formula that is found is the first one of the user's with the identifier. -/
theorem Store.findUser_first {store : Store} {id : Uuid} {index : Nat} {entry : Entry}
    (found : store.findUser id = .ok (index, entry))
    : ∃ earlier later,
        store.user = earlier ++ entry :: later
        ∧ earlier.length = index
        ∧ entry.id = id
        ∧ ∀ other ∈ earlier, other.id ≠ id := by
  have there := findUser_ok found
  obtain ⟨inside, rfl⟩ := List.getElem?_eq_some_iff.mp there
  have first : store.user.findIdx? (·.id = id) = some index := by
    unfold findUser at found
    split at found
    next => contradiction
    next first =>
      split at found
      next => contradiction
      next => exact (Prod.mk.inj (Except.ok.inj found)).1 ▸ first
  obtain ⟨_, named, others⟩ := List.findIdx?_eq_some_iff_getElem.mp first
  refine ⟨store.user.take index, store.user.drop (index + 1), ?_, ?_, by simpa using named, ?_⟩
  · rw [List.getElem_cons_drop, List.take_append_drop]
  · exact List.length_take_of_le (Nat.le_of_lt inside)
  · intro other member
    obtain ⟨place, before, rfl⟩ := List.mem_take_iff_getElem.mp member
    simpa using others place (by omega)

/-- An edit that is allowed makes one of the changes. -/
theorem Edit.makes_of_change {outside : Outside} {session : Session} {edit : Edit}
    {change : Change Unit} (allowed : edit.change outside session = .ok change)
    : edit.Makes outside session change := by
  cases edit with
  | add expression name category isMultiFrame =>
      simp only [Edit.change, addition, map_eq_ok, bind_eq_ok, pure_eq_ok] at allowed
      obtain ⟨_, ⟨-, -, labels, given, rfl⟩, rfl⟩ := allowed
      exact .added (checkLabels_ok given)
  | update id expression name category =>
      simp only [Edit.change, replacement, map_eq_ok, bind_eq_ok, pure_eq_ok, Prod.exists]
        at allowed
      obtain ⟨_, ⟨index, current, found, labels, given, rfl⟩, rfl⟩ := allowed
      exact .replaced (Store.findUser_ok found) (checkLabels_ok given)
  | delete id =>
      simp only [Edit.change, removal, map_eq_ok, bind_eq_ok, pure_eq_ok, Prod.exists] at allowed
      obtain ⟨_, ⟨index, entry, found, rfl⟩, rfl⟩ := allowed
      exact .removed (Store.findUser_ok found)
  | toggle id =>
      simp only [Edit.change, flagChange, map_eq_ok] at allowed
      obtain ⟨_, flagged, rfl⟩ := allowed
      split at flagged
      next => contradiction
      next entry found =>
        obtain rfl := Except.ok.inj flagged
        exact .flagged found

theorem Change.commit_withoutResult {α : Type} (change : Change α)
    : change.withoutResult.commit = change.commit.withoutResult := by
  simp only [Change.commit, Change.withoutResult, Outcome.withoutResult]
  split
  next => rfl
  next => split <;> rfl

theorem commitIfAllowed_withoutResult {α : Type} (session : Session)
    (attempt : Except Error (Change α))
    : (commitIfAllowed session attempt).withoutResult
      = commitIfAllowed session (attempt.map .withoutResult) := by
  cases attempt with
  | error => rfl
  | ok change => exact change.commit_withoutResult.symm

/-- An edit is the change that it makes, saved if it is allowed. -/
theorem Edit.perform_eq (outside : Outside) (session : Session) (edit : Edit)
    : edit.perform outside session = commitIfAllowed session (edit.change outside session) := by
  cases edit with
  | add => exact commitIfAllowed_withoutResult ..
  | update => exact commitIfAllowed_withoutResult ..
  | delete id =>
      change commitIfAllowed session (removal session id)
        = commitIfAllowed session ((removal session id).map .withoutResult)
      cases removal session id <;> rfl
  | toggle => exact commitIfAllowed_withoutResult ..

-----------------------------------------------------------------------------------------
-- Saving
-----------------------------------------------------------------------------------------

theorem Disk.rename_ok {disk renamed : Disk} {content : String}
    (h : disk.rename content = .ok renamed)
    : renamed = { disk with state := .text content, temporaries := disk.temporaries - 1 } := by
  unfold rename at h
  split at h
  next => contradiction
  next =>
    split at h
    next => contradiction
    next => exact (Except.ok.inj h).symm

theorem Disk.rename_error {disk : Disk} {content : String} {cause : WriteError}
    (h : disk.rename content = .error cause)
    : cause ≠ .directoryBlocked := by
  unfold rename at h
  split at h
  next => simp [← Except.error.inj h]
  next =>
    split at h
    next => simp [← Except.error.inj h]
    next => contradiction

/-- A write that succeeds puts the text in the place of the state and changes nothing else. -/
theorem Disk.write_ok {disk written : Disk} {content : String}
    (h : disk.write content = (.ok (), written))
    : disk.blocked = false ∧ written = { disk with state := .text content } := by
  unfold write at h
  split at h
  next => simp at h
  next clear =>
    dsimp only at h
    split at h
    next renamed placed =>
      obtain rfl := (Prod.mk.inj h).2
      exact ⟨Bool.eq_false_iff.mpr clear, rename_ok placed⟩
    next => simp at h

/-- A write that fails leaves the disk as it is, without a temporary file. -/
theorem Disk.write_error {disk left : Disk} {content : String} {cause : WriteError}
    (h : disk.write content = (.error cause, left))
    : left = disk ∧ (cause = .directoryBlocked ↔ disk.blocked = true) := by
  unfold write at h
  split at h
  next blocked =>
    obtain ⟨rfl, rfl⟩ : .directoryBlocked = cause ∧ disk = left := by simpa using h
    exact ⟨rfl, by simp [blocked]⟩
  next clear =>
    dsimp only at h
    split at h
    next => simp at h
    next reason failed =>
      obtain ⟨rfl, rfl⟩ : reason = cause ∧ disk = left := by simpa using h
      exact ⟨rfl, by simp [rename_error failed, clear]⟩

/-- Saving that succeeds writes the text of the store, if the state has a file. -/
theorem save_ok {session saved : Session} {path : String}
    (stored : session.paths.state = some path) (h : save session = (.ok (), saved))
    : session.disk.blocked = false
      ∧ saved
        = { session with disk := { session.disk with state := .text session.store.text } } := by
  simp only [save, stored] at h
  split at h
  next disk written =>
    obtain ⟨clear, rfl⟩ := Disk.write_ok written
    exact ⟨clear, (Prod.mk.inj h).2.symm⟩
  next => simp at h
  next => simp at h

/-- Saving that fails changes nothing. The error stays in memory exactly if the directory of the
state is blocked.
-/
theorem save_error {session left : Session} {error : Error}
    (h : save session = (.error error, left))
    : left = session ∧ staysInMemory error = session.disk.blocked := by
  unfold save at h
  split at h
  next => simp at h
  next path _ =>
    split at h
    next => simp at h
    next disk failed =>
      obtain ⟨rfl, blocked⟩ := Disk.write_error failed
      obtain ⟨rfl, rfl⟩ : Error.directoryBlocked = error ∧ session = left := by simpa using h
      exact ⟨rfl, (blocked.mp rfl).symm⟩
    next cause disk other failed =>
      obtain ⟨rfl, blocked⟩ := Disk.write_error failed
      obtain ⟨rfl, rfl⟩ : Error.unwritable path cause = error ∧ session = left := by
        simpa using h
      have clear : session.disk.blocked = false :=
        Bool.eq_false_iff.mpr fun h => other (blocked.mpr h)
      exact ⟨rfl, clear.symm⟩

/-- A change that is committed is what saving leaves, or it is taken back from that. -/
theorem Change.commit_cases {α : Type} (change : Change α)
    : change.commit.2 = (save change.session).2
      ∨ change.commit.2
        = (save change.session).2.withStore (change.undo (save change.session).2.store) := by
  unfold commit
  split
  next outcome => exact .inl (congrArg Prod.snd outcome).symm
  next outcome =>
    rw [outcome]
    split
    next => exact .inl rfl
    next => exact .inr rfl

end Wavetable.Catalogue
