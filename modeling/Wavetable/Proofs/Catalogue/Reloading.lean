import Wavetable.Proofs.Catalogue.Flags

/-!
Bundled files that are read anew. As long as a file is as it was when it was last read, its entries
in memory are those that it gives, so that reading it anew only takes their flags away.
-/

namespace Wavetable.Catalogue

/-- The entries that come from a bundled file. -/
def Store.part (store : Store) (isMultiFrame : Bool) : List Entry :=
  if isMultiFrame then store.multis else store.singles

/-- A bundled file gives the entries in memory, up to flags and dates. -/
def Session.Reads (isMultiFrame : Bool) (session : Session) : Prop :=
  ∀ now, readBundle now session.paths.library isMultiFrame (session.disk.bundle isMultiFrame)
    = .ok ((session.store.part isMultiFrame).map (·.unmarked now))

/-- A later moment of a catalogue at which a bundled file is the same, and its entries are the same
up to flags and dates.
-/
structure Session.KeepsBundle (isMultiFrame : Bool) (before after : Session) : Prop where
  paths : after.paths = before.paths
  file : after.disk.bundle isMultiFrame = before.disk.bundle isMultiFrame
  entries
    : ∀ now, (after.store.part isMultiFrame).map (·.unmarked now)
        = (before.store.part isMultiFrame).map (·.unmarked now)

section
variable {isMultiFrame : Bool} {outside : Outside} {before after session : Session}

theorem Session.KeepsBundle.refl (session : Session) : session.KeepsBundle isMultiFrame session :=
  ⟨rfl, rfl, fun _ => rfl⟩

theorem Session.Reads.along (reads : before.Reads isMultiFrame)
    (keeps : before.KeepsBundle isMultiFrame after)
    : after.Reads isMultiFrame := fun now => by
  rw [keeps.paths, keeps.file, keeps.entries]
  exact reads now

theorem Store.SameBundle.part {left right : Store} (same : left.SameBundle right)
    (isMultiFrame : Bool) (now : Timestamp)
    : (left.part isMultiFrame).map (·.unmarked now)
      = (right.part isMultiFrame).map (·.unmarked now) := by
  cases isMultiFrame with
  | false => exact same.singles now
  | true => exact same.multis now

theorem Store.SameEntries.sameBundle {left right : Store} (same : left.SameEntries right)
    : left.SameBundle right :=
  ⟨fun _ => by rw [same.singles], fun _ => by rw [same.multis]⟩

-----------------------------------------------------------------------------------------
-- Turns that keep a bundled file
-----------------------------------------------------------------------------------------

theorem bundle_save (session : Session) (isMultiFrame : Bool)
    : (save session).2.disk.bundle isMultiFrame = session.disk.bundle isMultiFrame := by
  unfold save
  split
  next => rfl
  next =>
    split
    next written => rw [(Disk.write_ok written).2]; rfl
    next failed => rw [(Disk.write_error failed).1]
    next failed => rw [(Disk.write_error failed).1]

theorem Change.bundle_commit (change : Change Unit) (isMultiFrame : Bool)
    : change.commit.2.disk.bundle isMultiFrame = change.session.disk.bundle isMultiFrame := by
  rw [← bundle_save change.session isMultiFrame]
  rcases change.commit_cases with stands | undone
  · rw [stands]
  · rw [undone]
    rfl

theorem Edit.keepsBundle (edit : Edit)
    : session.KeepsBundle isMultiFrame (edit.perform outside session).2 := by
  cases allowed : edit.change outside session with
  | error =>
      rw [edit.perform_eq, allowed]
      exact .refl session
  | ok change =>
      have makes := Edit.makes_of_change allowed
      have file : (edit.perform outside session).2.disk.bundle isMultiFrame
          = session.disk.bundle isMultiFrame := by
        rw [edit.perform_eq, allowed, ← makes.disk_eq]
        exact change.bundle_commit isMultiFrame
      have same : (edit.perform outside session).2.store.SameBundle session.store := by
        rcases Edit.store_perform allowed with stands | same
        · exact stands ▸ makes.sameBundle
        · exact same.sameBundle
      exact ⟨edit.precedes.paths, file, same.part isMultiFrame⟩

theorem keepsBundle_loadUserState
    : session.KeepsBundle isMultiFrame (loadUserState outside session).2 := by
  unfold loadUserState
  split
  next => exact .refl session
  next =>
    split
    next => exact .refl session
    next => exact .refl session
    next => exact .refl session
    next =>
      split
      next => exact .refl session
      next => exact ⟨rfl, rfl, (Store.sameBundle_withState ..).part isMultiFrame⟩

/-- A bundled file that is read anew gives the same entries, whether or not the other one can be
read.
-/
theorem Session.Reads.loadedBundled (reads : session.Reads isMultiFrame)
    : (loadBundled outside session).2.Reads isMultiFrame := by
  refine reads.along ⟨(precedes_loadBundled outside session).paths, ?_, fun now => ?_⟩
  · unfold loadBundled
    split
    next => rfl
    next => dsimp only; split <;> rfl
  · -- What is read is what is in memory, so only the other file's entries may differ.
    have again := reads outside.now
    unfold loadBundled
    split
    next => rfl
    next singles single =>
      dsimp only
      cases isMultiFrame with
      | false =>
          have same : singles = session.store.singles.map (·.unmarked outside.now) :=
            Except.ok.inj (single.symm.trans again)
          split <;> simp [Store.part, same]
      | true =>
          split
          next => rfl
          next multis multi =>
            have same : multis = session.store.multis.map (·.unmarked outside.now) :=
              Except.ok.inj (multi.symm.trans again)
            simp [Store.part, same]

/-- What a bundled file gives is in memory after every turn that leaves the file as it is. -/
theorem Session.Reads.perform (reads : session.Reads isMultiFrame) {turn : Turn}
    (keeps : turn.keepsBundle isMultiFrame = true)
    : (turn.perform outside session).Reads isMultiFrame := by
  cases turn with
  | own event =>
      cases event with
      | edit edit => exact reads.along edit.keepsBundle
      | save =>
          refine reads.along ⟨(session.precedes_save).paths, bundle_save .., fun now => ?_⟩
          exact congrArg (fun store => (Store.part store isMultiFrame).map (·.unmarked now))
            (save_store session)
      | loadUser => exact reads.along keepsBundle_loadUserState
      | loadBundled => exact reads.loadedBundled
      | fill => exact reads.along ⟨rfl, rfl, fun _ => rfl⟩
  | putBundle other file =>
      have file : (session.disk.withBundle other file).bundle isMultiFrame
          = session.disk.bundle isMultiFrame := by
        cases other <;> cases isMultiFrame <;> first | rfl | contradiction
      exact reads.along ⟨rfl, file, fun _ => rfl⟩
  | putState => exact reads.along ⟨rfl, rfl, fun _ => rfl⟩
  | block => exact reads.along ⟨rfl, rfl, fun _ => rfl⟩

/-- By induction on the history. -/
theorem Session.Reads.afterTurns {ids : Nat → Uuid} (reads : session.Reads isMultiFrame)
    {history : Turns} (keeps : ∀ moment ∈ history, moment.2.keepsBundle isMultiFrame = true)
    : (session.afterTurns ids history).Reads isMultiFrame := by
  induction history generalizing session with
  | nil => exact reads
  | cons moment rest ih =>
      obtain ⟨here, others⟩ := List.forall_mem_cons.mp keeps
      exact ih (reads.perform here) others

-----------------------------------------------------------------------------------------
-- Reading anew
-----------------------------------------------------------------------------------------

/-- After the bundled files were read, each gives what is in memory. -/
theorem Session.reads_of_loadBundled (loads : loadBundled outside before = (.ok (), session))
    (isMultiFrame : Bool)
    : session.Reads isMultiFrame := by
  unfold loadBundled at loads
  split at loads
  next => simp at loads
  next singles single =>
    dsimp only at loads
    split at loads
    next => simp at loads
    next multis multi =>
      obtain rfl := (Prod.mk.inj loads).2
      cases isMultiFrame with
      | false => exact readBundle_again single
      | true => exact readBundle_again multi

theorem Session.Reads.loadBundled_eq (singles : session.Reads false) (multis : session.Reads true)
    : loadBundled outside session
      = (.ok (), session.withStore (session.store.reread outside.now)) :=
  loadBundled_unchanged (singles outside.now) (multis outside.now)

end

-----------------------------------------------------------------------------------------
-- Favorites over time
-----------------------------------------------------------------------------------------

/-- An entry ceases to be a favorite only in a turn that toggles or removes it, that loads a state
without it, or that reads the bundled files anew. As long as these are as they were when they were
read, reading them anew succeeds and takes the flags of all bundled entries away, while the user's
own formulas keep theirs.
-/
theorem favorites_through_turns (ids : Nat → Uuid) (session : Session) (history : Turns)
    : (∀ id,
        (session.afterTurns ids history).store.favored id < session.store.favored id
        → ∃ earlier moment later, history = earlier ++ moment :: later
            ∧ moment.2.Unmarks (session.afterTurns ids earlier) id)
      ∧ (∀ outside before again,
          loadBundled outside before = (.ok (), session)
          → (∀ moment ∈ history, ∀ isMultiFrame, moment.2.keepsBundle isMultiFrame = true)
          → loadBundled again (session.afterTurns ids history)
            = (.ok (),
                (session.afterTurns ids history).withStore
                  ((session.afterTurns ids history).store.reread again.now))) := by
  refine ⟨fun id lost => Session.unmarks_of_loss lost, fun outside before again loads keeps => ?_⟩
  have reads : ∀ isMultiFrame, (session.afterTurns ids history).Reads isMultiFrame :=
    fun isMultiFrame =>
      (Session.reads_of_loadBundled loads isMultiFrame).afterTurns
        fun moment member => keeps moment member isMultiFrame
  exact (reads false).loadBundled_eq (reads true)

-----------------------------------------------------------------------------------------
-- A favorite that is lost
-----------------------------------------------------------------------------------------

/-- The only formula of the text `[w][Ramp]`. -/
def rampKey : BundleKey :=
  ⟨false, "Single-Frame", "w", "Ramp"⟩

/-- A catalogue that is opened on that text. -/
def openedOnRamp : Session :=
  openedOn ⟨.text "[w][Ramp]", .missing, .missing, false, false, 0⟩

theorem openedOnRamp_store
    : openedOnRamp.store = ⟨[rampKey.entry openingTime 0], [], []⟩ := rfl

theorem toggle_ramp
    : (Event.edit (.toggle (rampKey.id 0))).perform ⟨.mk, openingTime⟩ openedOnRamp
      = (openedOnRamp.flagging (rampKey.id 0) false).withoutResult.commit := by
  have found : openedOnRamp.store.get? (rampKey.id 0) = some (rampKey.entry openingTime 0) := by
    simp [Store.get?, Store.every, Store.bundled, openedOnRamp_store, BundleKey.entry]
  rw [Event.perform, Edit.perform_eq, Edit.change, flagChange, found]
  rfl

theorem toggle_ramp_store
    : ((Event.edit (.toggle (rampKey.id 0))).perform ⟨.mk, openingTime⟩ openedOnRamp).2.store
      = ⟨[(rampKey.entry openingTime 0).withFavorite true], [], []⟩ := by
  have marked : openedOnRamp.store.mark (rampKey.id 0) true
      = ⟨[(rampKey.entry openingTime 0).withFavorite true], [], []⟩ := by
    simp [openedOnRamp_store, Store.mark, markFirst, BundleKey.entry]
  rw [toggle_ramp, ← marked]
  rfl

theorem openedOnRamp_loads
    : loadBundled ⟨.mk, openingTime⟩
          ⟨⟨"library", some "state.json"⟩,
            ⟨.text "[w][Ramp]", .missing, .missing, false, false, 0⟩, .empty, 0⟩
      = (.ok (), openedOnRamp) := rfl

/-- The catalogue in which the formula is a favorite loses it when it reads its files anew. -/
theorem favorites_through_turns_ramp
    : let history : Turns := [(openingTime, .own (.edit (.toggle (rampKey.id 0))))]
      let marked := openedOnRamp.afterTurns .mk history
      let reloaded := marked.afterTurns .mk [(openingTime, .own .loadBundled)]
      reloaded.store.favored (rampKey.id 0) < marked.store.favored (rampKey.id 0)
        ∧ (∃ earlier moment later,
            [(openingTime, Turn.own .loadBundled)] = earlier ++ moment :: later
              ∧ moment.2.Unmarks (marked.afterTurns .mk earlier) (rampKey.id 0))
        ∧ loadBundled ⟨.mk, openingTime⟩ marked
          = (.ok (), marked.withStore (marked.store.reread openingTime)) := by
  intro history marked reloaded
  have store : marked.store = ⟨[(rampKey.entry openingTime 0).withFavorite true], [], []⟩ :=
    toggle_ramp_store
  have again : loadBundled ⟨.mk, openingTime⟩ marked
      = (.ok (), marked.withStore (marked.store.reread openingTime)) := by
    refine (favorites_through_turns .mk openedOnRamp history).2 _ _ ⟨.mk, openingTime⟩
      openedOnRamp_loads fun moment member isMultiFrame => ?_
    obtain rfl := List.mem_singleton.mp member
    rfl
  have before : marked.store.favored (rampKey.id 0) = 1 := by
    simp [store, Store.favored, Store.every, Store.bundled, Entry.flag, Entry.withFavorite,
      BundleKey.entry]
  have after : reloaded.store.favored (rampKey.id 0) = 0 := by
    have reread : reloaded.store = marked.store.reread openingTime :=
      congrArg (fun outcome => outcome.2.store) again
    simp [reread, store, Store.reread, Store.favored, Store.every, Store.bundled, Entry.flag,
      Entry.unmarked, Entry.withFavorite]
  have lost : reloaded.store.favored (rampKey.id 0) < marked.store.favored (rampKey.id 0) := by
    rw [before, after]
    exact Nat.one_pos
  exact ⟨lost, (favorites_through_turns .mk marked _).1 _ lost, again⟩

/-- The formula is made a favorite, and reading the same files anew takes its flag away. -/
theorem reload_drops_favorite
    : let outside : Outside := ⟨.mk, openingTime⟩
      let marked := (Event.edit (.toggle (rampKey.id 0))).perform outside openedOnRamp
      let reloaded := loadBundled outside marked.2
      marked.1 = .ok ()
        ∧ marked.2.disk.singles = openedOnRamp.disk.singles
        ∧ marked.2.disk.multis = openedOnRamp.disk.multis
        ∧ marked.2.store.every.map Entry.flag = [(rampKey.id 0, true)]
        ∧ reloaded.1 = .ok ()
        ∧ reloaded.2.store.every.map Entry.flag = [(rampKey.id 0, false)] := by
  intro outside marked reloaded
  have done : marked = (openedOnRamp.flagging (rampKey.id 0) false).withoutResult.commit :=
    toggle_ramp
  have store : marked.2.store = ⟨[(rampKey.entry openingTime 0).withFavorite true], [], []⟩ :=
    toggle_ramp_store
  have reads : ∀ isMultiFrame, marked.2.Reads isMultiFrame := fun isMultiFrame =>
    (Session.reads_of_loadBundled openedOnRamp_loads isMultiFrame).along (Edit.keepsBundle _)
  have again : reloaded = (.ok (), marked.2.withStore (marked.2.store.reread openingTime)) :=
    (reads false).loadBundled_eq (reads true)
  rw [again, store, done]
  exact ⟨rfl, rfl, rfl, rfl, rfl, rfl⟩

end Wavetable.Catalogue
