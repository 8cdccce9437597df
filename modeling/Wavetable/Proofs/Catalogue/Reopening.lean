import Wavetable.Proofs.Catalogue.Consistency

/-!
Saved catalogues come back. Right after an event that has saved the state, opening the same files
again gives the user's formulas and all favorites as they are in memory.
-/

namespace Wavetable.Catalogue

variable {ids : Nat → Uuid} {last : Nat} {session : Session}

-----------------------------------------------------------------------------------------
-- Opening
-----------------------------------------------------------------------------------------

section
variable {outside : Outside} {paths : Paths} {path : String} {disk : Disk} {drawn : Nat}
  {singles multis : List Entry}

/-- A catalogue as it is when only the bundled files are read. -/
def bundledSession (paths : Paths) (disk : Disk) (singles multis : List Entry) (drawn : Nat)
    : Session :=
  ⟨paths, disk, ⟨singles, multis, []⟩, drawn⟩

/-- With readable bundled files, opening goes on with the state of the user. -/
theorem openSession_eq
    (single : readBundle outside.now paths.library false disk.singles = .ok singles)
    (multi : readBundle outside.now paths.library true disk.multis = .ok multis)
    : openSession outside paths disk drawn true
      = loadUserState outside (bundledSession paths disk singles multis drawn) := by
  simp [openSession, loadBundled, single, multi, Store.empty, bundledSession]

/-- A catalogue is only opened if its bundled files are read. -/
theorem readBundle_of_opens {opened : Session}
    (opens : openSession outside paths disk drawn true = (.ok (), opened))
    : ∃ singles multis,
        readBundle outside.now paths.library false disk.singles = .ok singles
        ∧ readBundle outside.now paths.library true disk.multis = .ok multis := by
  cases single : readBundle outside.now paths.library false disk.singles with
  | error => simp [openSession, loadBundled, single] at opens
  | ok singles =>
      cases multi : readBundle outside.now paths.library true disk.multis with
      | error => simp [openSession, loadBundled, single, multi] at opens
      | ok multis => exact ⟨singles, multis, rfl, rfl⟩

/-- A state with a file is loaded if there is none or its text is that of a state. -/
theorem loadUserState_ok {loaded : Session} (stored : session.paths.state = some path)
    (loads : loadUserState outside session = (.ok (), loaded))
    : (session.disk.visibleState = .missing ∧ loaded = session)
      ∨ ∃ content state, session.disk.visibleState = .text content
          ∧ State.ofText content = .ok state ∧ loaded = takeState outside session state := by
  simp only [loadUserState, stored] at loads
  split at loads
  next missing => exact .inl ⟨missing, (Prod.mk.inj loads).2.symm⟩
  next => simp at loads
  next => simp at loads
  next content visible =>
    split at loads
    next => simp at loads
    next state read => exact .inr ⟨content, state, visible, read, (Prod.mk.inj loads).2.symm⟩

end

/-- The identifiers that a state gives are, behind the bundled ones, among those of the catalogue
into which it is taken.
-/
theorem givenIds_sublist_takeState (outside : Outside) (session : Session) (state : State)
    : (session.store.bundled.map (·.id) ++ state.givenIds).Sublist
        (takeState outside session state).store.ids := by
  rw [takeState, Store.ids_withState]
  exact (List.Sublist.refl _).append (givenIds_sublist ..)

/-- A catalogue that was opened with distinct identifiers is consistent. -/
theorem Session.Consistent.opened {start : Timestamp} {paths : Paths} {path : String} {disk : Disk}
    {drawn : Nat} {opened : Session} (stored : paths.state = some path)
    (opens : openSession ⟨ids, start⟩ paths disk drawn true = (.ok (), opened))
    (clock : start.IsWritable)
    (valid : ∀ k, drawn ≤ k → k < opened.drawn → (ids k).IsValid)
    (distinct : opened.store.ids.Nodup)
    (fresh : Fresh ids opened.drawn last opened.store.ids)
    : opened.Consistent ids last := by
  obtain ⟨singles, multis, single, multi⟩ := readBundle_of_opens opens
  rw [openSession_eq single multi] at opens
  rcases loadUserState_ok stored opens with ⟨missing, rfl⟩ | ⟨content, state, visible, read, rfl⟩
  · exact {
      singles := readBundle_again single
      multis := readBundle_again multi
      writable := by simp [bundledSession]
      distinct := distinct
      fresh := fresh
      loads := fun content state visible _ => by
        rw [missing] at visible
        contradiction }
  · have given := givenIds_sublist_takeState ⟨ids, start⟩
      (bundledSession paths disk singles multis drawn) state
    have same : Store.SameBundle
        (takeState ⟨ids, start⟩ (bundledSession paths disk singles multis drawn) state).store
        ⟨singles, multis, []⟩ := Store.sameBundle_withState ..
    exact {
      singles := fun now =>
        (readBundle_again single now).trans (congrArg Except.ok (same.singles now).symm)
      multis := fun now =>
        (readBundle_again multi now).trans (congrArg Except.ok (same.multis now).symm)
      writable := isWritable_takeState clock read valid
      distinct := distinct
      fresh := fresh
      loads := fun content' state' visible' read' => by
        obtain rfl := Text.File.text.inj (visible.symm.trans visible')
        obtain rfl := Except.ok.inj (read.symm.trans read')
        rw [same.map_id]
        exact ⟨distinct.sublist given, fresh.subset given.subset⟩ }

-----------------------------------------------------------------------------------------
-- Reopening
-----------------------------------------------------------------------------------------

/-- An entry is listed as a favorite exactly if it is one, since no other entry has its
identifier.
-/
theorem contains_favoriteIds {store : Store} (distinct : store.ids.Nodup) {entry : Entry}
    (member : entry ∈ store.every)
    : store.favoriteIds.contains entry.id = entry.isFavorite := by
  rw [Bool.eq_iff_iff, List.contains_iff_mem]
  constructor
  · intro listed
    obtain ⟨other, marked, same⟩ := List.mem_map.mp listed
    obtain ⟨known, favorite⟩ := List.mem_filter.mp marked
    obtain rfl := List.inj_on_of_nodup_map distinct known member same
    exact favorite
  · intro favorite
    exact List.mem_map.mpr ⟨entry, List.mem_filter.mpr ⟨member, favorite⟩, rfl⟩

/-- A store with the time for the dates of its bundled entries at which they are read. -/
def Store.readAt (store : Store) (now : Timestamp) : Store where
  singles := store.singles.map (·.readAt now)
  multis := store.multis.map (·.readAt now)
  user := store.user

theorem completeAll_stored (outside : Outside) (drawn : Nat) (entries : List Entry)
    : completeAll outside drawn (entries.map Entry.stored) = entries := by
  induction entries with
  | nil => rfl
  | cons entry rest ih => simp [completeAll, ih, Entry.stored, StoredEntry.complete, Entry.labels]

/-- A state that was written leaves no identifier to be drawn. -/
theorem countUnnamed_stored (entries : List Entry)
    : countUnnamed (entries.map Entry.stored) = 0 := by
  simp [countUnnamed, Entry.stored]

/-- Bundled entries that are read anew get their flags back from the favorites. -/
theorem map_markBundled_unmarked {store : Store} (distinct : store.ids.Nodup)
    {entries : List Entry} (part : entries ⊆ store.every) (now : Timestamp)
    : (entries.map (·.unmarked now)).map (markBundled store.favoriteIds)
      = entries.map (·.readAt now) := by
  rw [List.map_map]
  refine List.map_congr_left fun entry member => ?_
  have favored := contains_favoriteIds distinct (part member)
  simp only [Function.comp_apply, markBundled, Entry.unmarked_id, favored]
  rfl

/-- The user's formulas keep their flags. -/
theorem map_markUser {store : Store} (distinct : store.ids.Nodup)
    : store.user.map (markUser store.favoriteIds) = store.user := by
  refine (List.map_congr_left fun entry member => ?_).trans (List.map_id _)
  have favored := contains_favoriteIds distinct (List.mem_append_right _ member)
  simp only [markUser, favored, Bool.or_self]
  rfl

/-- A catalogue in which no identifier occurs twice comes back when it is opened, if the bundled
files are as they were read and the text of the store is the state on the disk.
-/
theorem Session.opens_again {outside : Outside}
    (singles
      : readBundle outside.now session.paths.library false session.disk.singles
        = .ok (session.store.singles.map (·.unmarked outside.now)))
    (multis
      : readBundle outside.now session.paths.library true session.disk.multis
        = .ok (session.store.multis.map (·.unmarked outside.now)))
    (writable : session.store.IsWritable) (distinct : session.store.ids.Nodup) {path : String}
    (stored : session.paths.state = some path)
    (visible : session.disk.visibleState = .text session.store.text) (drawn : Nat)
    : openSession outside session.paths session.disk drawn true
      = (.ok (), ⟨session.paths, session.disk, session.store.readAt outside.now, drawn⟩) := by
  rw [openSession_eq singles multis]
  simp only [loadUserState, bundledSession, stored, visible, writable.ofText_text]
  have single : session.store.singles ⊆ session.store.every := fun _ member =>
    List.mem_append_left _ (List.mem_append_left _ member)
  have multi : session.store.multis ⊆ session.store.every := fun _ member =>
    List.mem_append_left _ (List.mem_append_right _ member)
  simp only [takeState, Store.withState, completeAll_stored,
    map_markBundled_unmarked distinct single, map_markBundled_unmarked distinct multi,
    map_markUser distinct]
  exact congrArg (fun count => (Except.ok (), Session.mk _ _ _ (drawn + count)))
    (countUnnamed_stored session.store.user)

/-- A consistent catalogue whose text is the state on the disk comes back when it is opened. -/
theorem Session.Consistent.reopens (consistent : session.Consistent ids last) {path : String}
    (stored : session.paths.state = some path)
    (visible : session.disk.visibleState = .text session.store.text) (outside : Outside)
    (drawn : Nat)
    : openSession outside session.paths session.disk drawn true
      = (.ok (), ⟨session.paths, session.disk, session.store.readAt outside.now, drawn⟩) :=
  Session.opens_again (consistent.singles _) (consistent.multis _) consistent.isWritable
    consistent.distinct stored visible drawn

-----------------------------------------------------------------------------------------
-- Events that save
-----------------------------------------------------------------------------------------

variable {outside : Outside} {saved : Session} {path : String}

/-- After saving, the state on the disk has the text of the store. -/
theorem visibleState_of_save (stored : session.paths.state = some path)
    (done : save session = (.ok (), saved))
    : saved.disk.visibleState = .text saved.store.text := by
  obtain ⟨clear, rfl⟩ := save_ok stored done
  simp [Disk.visibleState, clear]

theorem visibleState_of_commit {change : Change Unit}
    (stored : change.session.paths.state = some path) (done : change.commit = (.ok (), saved))
    : saved.disk.visibleState = .text saved.store.text := by
  unfold Change.commit at done
  split at done
  next outcome =>
    obtain rfl := (Prod.mk.inj done).2
    exact visibleState_of_save stored outcome
  next => split at done <;> simp at done

/-- An event that saves and succeeds leaves a state with the text of the store. -/
theorem Event.visibleState_of_saved {event : Event} (writes : event.isSaved = true)
    (stored : session.paths.state = some path)
    (done : event.perform outside session = (.ok (), saved))
    : saved.disk.visibleState = .text saved.store.text := by
  cases event with
  | edit edit =>
      rw [Event.perform, edit.perform_eq] at done
      cases allowed : edit.change outside session with
      | error => simp [allowed, commitIfAllowed] at done
      | ok change =>
          rw [allowed] at done
          have paths := (Edit.makes_of_change allowed).precedes.paths
          exact visibleState_of_commit (paths ▸ stored) done
  | save => exact visibleState_of_save stored done
  | loadUser => contradiction
  | loadBundled => contradiction
  | fill => contradiction

/-- Right after an event that has saved the state, the same files are opened with the user's
formulas as they are in memory, in the same order and with all their fields, and with every bundled
entry as it is in memory, favorite or not, but for its dates. Assumed are distinct identifiers at
the beginning and fresh ones later, and times that the clock can show.
-/
theorem openSession_after_save {start now : Timestamp} {paths : Paths} {disk : Disk}
    {drawn : Nat} {opened : Session} {history : History} {event : Event}
    (stored : paths.state = some path)
    (opens : openSession ⟨ids, start⟩ paths disk drawn true = (.ok (), opened))
    (distinct : opened.store.ids.Nodup)
    (valid : ∀ k, drawn ≤ k → k < opened.drawn → (ids k).IsValid)
    (fresh : Fresh ids opened.drawn saved.drawn opened.store.ids)
    (clocks : start.IsWritable ∧ (∀ moment ∈ history, moment.1.IsWritable) ∧ now.IsWritable)
    (writes : event.isSaved = true)
    (done : event.perform ⟨ids, now⟩ (opened.after ids history) = (.ok (), saved))
    (outside : Outside) (redrawn : Nat)
    : openSession outside paths saved.disk redrawn true
      = (.ok (), ⟨paths, saved.disk, saved.store.readAt outside.now, redrawn⟩) := by
  have outcome : (event.perform ⟨ids, now⟩ (opened.after ids history)).2 = saved :=
    congrArg Prod.snd done
  have atStart : opened.paths = paths := by
    have empty := precedes_openSession ⟨ids, start⟩ paths disk drawn true
    rw [opens] at empty
    exact empty.paths
  have before : (opened.after ids history).paths = paths :=
    (Session.precedes_after ids opened history).paths.trans atStart
  have last : (opened.after ids history).Precedes saved := outcome ▸ event.precedes
  have consistent : saved.Consistent ids saved.drawn := by
    have first := Session.Consistent.opened stored opens clocks.1 valid distinct fresh
    have reached := first.after clocks.2.1 last.drawn
    exact outcome ▸ reached.perform clocks.2.2 event (outcome ▸ Nat.le_refl _)
  obtain rfl : saved.paths = paths := last.paths.trans before
  have visible := event.visibleState_of_saved writes (before.symm ▸ stored) done
  exact consistent.reopens stored visible outside redrawn

/-- The time that is shown in the catalogues of `openedOn` can be written. -/
theorem isWritable_openingTime : openingTime.IsWritable :=
  ⟨by decide, by decide⟩

/-- A formula that is added and then made a favorite comes back as one. -/
theorem openSession_after_save_favorite
    : let outside : Outside := ⟨.mk, openingTime⟩
      let opened := openedOn ⟨.missing, .missing, .missing, false, false, 0⟩
      let history : History := [(openingTime, .edit (.add "x" "N" "Mine" false))]
      let outcome := (Event.edit (.toggle ⟨0⟩)).perform outside (opened.after .mk history)
      outcome.1 = .ok ()
        ∧ outcome.2.store.user.map (fun entry => (entry.name, entry.isFavorite)) = [("N", true)]
        ∧ openSession outside ⟨"library", some "state.json"⟩ outcome.2.disk 1 true
          = (.ok (), ⟨⟨"library", some "state.json"⟩, outcome.2.disk,
              outcome.2.store.readAt openingTime, 1⟩) := by
  intro outside opened history outcome
  have added : opened.after .mk history = (commitIfAllowed opened (.ok _)).2 :=
    congrArg Prod.snd ((Edit.perform_eq outside opened _).trans
      (congrArg _ (addition_variable outside opened)))
  have done : outcome.1 = .ok () := by
    simp only [outcome, added]
    rfl
  have marked : outcome.2.store.user.map (fun entry => (entry.name, entry.isFavorite))
      = [("N", true)] := by
    simp only [outcome, added]
    rfl
  have once : outcome.2.drawn = 1 := by
    simp only [outcome, added]
    rfl
  have fresh : Fresh .mk opened.drawn outcome.2.drawn opened.store.ids := by
    rw [once]
    refine ⟨fun k _ below => ?_, fun j k _ _ below => ?_, fun k _ _ known => ?_⟩
    · exact Nat.lt_trans below (by decide)
    · exact fun same => by injection same; omega
    · exact absurd known List.not_mem_nil
  have opens : openSession outside ⟨"library", some "state.json"⟩
      ⟨.missing, .missing, .missing, false, false, 0⟩ 0 true = (.ok (), opened) := rfl
  have distinct : opened.store.ids.Nodup := List.nodup_nil
  have clock := isWritable_openingTime
  have clocks : ∀ moment ∈ history, moment.1.IsWritable := List.forall_mem_singleton.mpr clock
  exact ⟨done, marked, openSession_after_save rfl opens distinct
    (fun k _ below => absurd below k.not_lt_zero) fresh ⟨clock, clocks, clock⟩ rfl
    (Prod.ext done rfl) outside 1⟩

end Wavetable.Catalogue
