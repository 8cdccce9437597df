import Wavetable.Proofs.Catalogue.Reloading
import Wavetable.Proofs.Catalogue.Reopening

/-!
Favorites in the state on the disk. What is saved are the favorites among the entries in memory, so
edits of other entries keep a favorite in the state exactly if it has an entry there.
-/

namespace Wavetable.Catalogue

/-- A turn that reads no file, does not touch the state but by saving it, and neither toggles nor
removes an entry with an identifier.
-/
def Turn.isUnrelated (id : Uuid) : Turn → Bool
  | .own (.edit edit) => !edit.concerns id
  | .own .save => true
  | .own .loadUser => false
  | .own .loadBundled => false
  | .own (.fill _) => true
  | .putBundle _ _ => true
  | .putState _ => false
  | .block _ => true

/-- A later moment of a catalogue with as many favorites with an identifier, and with entries that
are read back when they are written.
-/
structure Session.KeepsFavorite (id : Uuid) (before after : Session) : Prop where
  paths : after.paths = before.paths
  favored : after.store.favored id = before.store.favored id
  writable : after.store.IsWritable

section
variable {ids : Nat → Uuid} {now : Timestamp} {id : Uuid} {opened session : Session}

theorem Store.SameBundle.isValid {left right : Store} (same : left.SameBundle right)
    (valid : ∀ entry ∈ right.bundled, entry.id.IsValid)
    : ∀ entry ∈ left.bundled, entry.id.IsValid := by
  have valid : ∀ id ∈ right.bundled.map (·.id), id.IsValid := List.forall_mem_map.mpr valid
  rw [← same.map_id] at valid
  exact List.forall_mem_map.mp valid

/-- Entries stay such that they are read back through every edit, whether it stands or not. -/
theorem Edit.isWritable_store (writable : session.store.IsWritable) (clock : now.IsWritable)
    (valid : (ids session.drawn).IsValid) (edit : Edit)
    : (edit.perform ⟨ids, now⟩ session).2.store.IsWritable := by
  cases allowed : edit.change ⟨ids, now⟩ session with
  | error =>
      rw [edit.perform_eq, allowed]
      exact writable
  | ok change =>
      have makes := Edit.makes_of_change allowed
      rcases Edit.store_perform allowed with stands | same
      · rw [stands]
        exact ⟨makes.isWritable_user writable.user clock fun _ => valid,
          makes.sameBundle.isValid writable.bundled⟩
      · have bundled : (edit.perform ⟨ids, now⟩ session).2.store.bundled
            = session.store.bundled := by
          rw [Store.bundled, Store.bundled, same.singles, same.multis]
        exact ⟨fun entry member => writable.user entry (same.user.mem_iff.mp member),
          bundled ▸ writable.bundled⟩

/-- The formulas of a state that is loaded are read back when they are written. -/
theorem Store.IsWritable.loadedUser (writable : session.store.IsWritable) (clock : now.IsWritable)
    (valid : ∀ k, (ids k).IsValid)
    : (loadUserState ⟨ids, now⟩ session).2.store.IsWritable := by
  unfold loadUserState
  split
  next => exact writable
  next =>
    split
    next => exact writable
    next => exact writable
    next => exact writable
    next =>
      split
      next => exact writable
      next read =>
        exact ⟨isWritable_takeState clock read fun k _ _ => valid k,
          (Store.sameBundle_withState ..).isValid writable.bundled⟩

/-- Entries stay such that they are read back in every turn but the reading of bundled files. -/
theorem Store.IsWritable.perform (writable : session.store.IsWritable) (clock : now.IsWritable)
    (valid : ∀ k, (ids k).IsValid) {turn : Turn} (other : turn ≠ .own .loadBundled)
    : (turn.perform ⟨ids, now⟩ session).store.IsWritable := by
  cases turn with
  | own event =>
      cases event with
      | edit edit => exact edit.isWritable_store writable clock (valid _)
      | save => exact (save_store session).symm ▸ writable
      | loadUser => exact writable.loadedUser clock valid
      | loadBundled => contradiction
      | fill => exact writable
  | putBundle => exact writable
  | putState => exact writable
  | block => exact writable

theorem Turn.precedes {outside : Outside} (turn : Turn)
    : session.Precedes (turn.perform outside session) := by
  cases turn with
  | own event => exact event.precedes
  | putBundle => exact ⟨rfl, Nat.le_refl _⟩
  | putState => exact ⟨rfl, Nat.le_refl _⟩
  | block => exact ⟨rfl, Nat.le_refl _⟩

/-- An unrelated turn leaves the favorites with an identifier. -/
theorem Turn.favored_perform {outside : Outside} {turn : Turn}
    (unrelated : turn.isUnrelated id = true)
    : (turn.perform outside session).store.favored id = session.store.favored id := by
  cases turn with
  | own event =>
      cases event with
      | edit edit =>
          have apart : edit.concerns id = false := by simpa [Turn.isUnrelated] using unrelated
          exact Edit.favored_perform apart
      | save => exact congrArg (·.favored id) (save_store session)
      | loadUser => contradiction
      | loadBundled => contradiction
      | fill => rfl
  | putBundle => rfl
  | putState => contradiction
  | block => rfl

/-- An unrelated turn keeps the favorites with an identifier. -/
theorem Session.KeepsFavorite.perform (keeps : opened.KeepsFavorite id session)
    (clock : now.IsWritable) (valid : ∀ k, (ids k).IsValid) {turn : Turn}
    (unrelated : turn.isUnrelated id = true)
    : opened.KeepsFavorite id (turn.perform ⟨ids, now⟩ session) := by
  have other : turn ≠ .own .loadBundled := by
    rintro rfl
    contradiction
  exact ⟨turn.precedes.paths.trans keeps.paths, (Turn.favored_perform unrelated).trans keeps.favored,
    keeps.writable.perform clock valid other⟩

/-- By induction on the history. -/
theorem Session.KeepsFavorite.afterTurns (keeps : opened.KeepsFavorite id session)
    (valid : ∀ k, (ids k).IsValid) {history : Turns}
    (clocks : ∀ moment ∈ history, moment.1.IsWritable)
    (unrelated : ∀ moment ∈ history, moment.2.isUnrelated id = true)
    : opened.KeepsFavorite id (session.afterTurns ids history) := by
  induction history generalizing session with
  | nil => exact keeps
  | cons moment rest ih =>
      obtain ⟨clock, clocks⟩ := List.forall_mem_cons.mp clocks
      obtain ⟨here, others⟩ := List.forall_mem_cons.mp unrelated
      exact ih (keeps.perform clock valid here) clocks others

/-- An identifier is among those of the favorites if there is a favorite with it. -/
theorem Store.mem_favoriteIds {store : Store}
    : id ∈ store.favoriteIds ↔ 0 < store.favored id := by
  rw [favored, List.count_pos_iff, favoriteIds, List.mem_map, List.mem_map]
  constructor
  · rintro ⟨entry, marked, rfl⟩
    obtain ⟨member, favorite⟩ := List.mem_filter.mp marked
    exact ⟨entry, member, Prod.ext rfl favorite⟩
  · rintro ⟨entry, member, same⟩
    exact ⟨entry, List.mem_filter.mpr ⟨member, congrArg Prod.snd same⟩, congrArg Prod.fst same⟩

-----------------------------------------------------------------------------------------
-- Opening
-----------------------------------------------------------------------------------------

variable {start : Timestamp} {paths : Paths} {path : String} {disk : Disk} {drawn : Nat}
  {content : String} {state : State}

/-- A catalogue that is opened on a state takes it over into the bundled entries. -/
theorem opened_eq_takeState (stored : paths.state = some path)
    (visible : disk.visibleState = .text content) (read : State.ofText content = .ok state)
    (opens : openSession ⟨ids, start⟩ paths disk drawn true = (.ok (), opened))
    : ∃ singles multis,
        readBundle start paths.library false disk.singles = .ok singles
        ∧ readBundle start paths.library true disk.multis = .ok multis
        ∧ opened = takeState ⟨ids, start⟩ (bundledSession paths disk singles multis drawn)
            state := by
  obtain ⟨singles, multis, single, multi⟩ := readBundle_of_opens opens
  rw [openSession_eq single multi] at opens
  refine ⟨singles, multis, single, multi, ?_⟩
  rcases loadUserState_ok stored opens with ⟨missing, -⟩ | ⟨content', state', visible', read', same⟩
  · exact absurd (missing.symm.trans visible) (by simp)
  · obtain rfl := Text.File.text.inj (visible'.symm.trans visible)
    obtain rfl := Except.ok.inj (read'.symm.trans read)
    exact same

/-- A catalogue that is opened on a state has every entry with a listed identifier as a favorite,
and its entries are read back when they are written.
-/
theorem opened_on_state (stored : paths.state = some path)
    (visible : disk.visibleState = .text content) (read : State.ofText content = .ok state)
    (opens : openSession ⟨ids, start⟩ paths disk drawn true = (.ok (), opened))
    (listed : id ∈ state.favorites) (clock : start.IsWritable) (valid : ∀ k, (ids k).IsValid)
    : opened.store.favored id = opened.store.ids.count id ∧ opened.store.IsWritable := by
  obtain ⟨singles, multis, single, multi, rfl⟩ := opened_eq_takeState stored visible read opens
  have same : Store.SameBundle
      (takeState ⟨ids, start⟩ (bundledSession paths disk singles multis drawn) state).store
      ⟨singles, multis, []⟩ := Store.sameBundle_withState ..
  have bundled : ∀ entry ∈ Store.bundled ⟨singles, multis, []⟩, entry.id.IsValid :=
    List.forall_mem_append.mpr ⟨isValid_id_of_readBundle single, isValid_id_of_readBundle multi⟩
  exact ⟨favored_takeState listed, isWritable_takeState clock read fun k _ _ => valid k,
    same.isValid bundled⟩

-----------------------------------------------------------------------------------------
-- Saving
-----------------------------------------------------------------------------------------

/-- A favorite that a state lists is listed again after every turn that saves the state, as long as
it is neither toggled nor removed and no file is read, if it had an entry when the catalogue was
opened. Without one it is no longer listed. What becomes of the bundled files meanwhile does not
matter. Assumed are identifiers of 128 bits, and times that the clock can show.
-/
theorem favorite_recorded_iff {history : Turns} {event : Event} {saved : Session}
    (stored : paths.state = some path)
    (visible : disk.visibleState = .text content) (read : State.ofText content = .ok state)
    (listed : id ∈ state.favorites)
    (opens : openSession ⟨ids, start⟩ paths disk drawn true = (.ok (), opened))
    (valid : ∀ k, (ids k).IsValid)
    (clocks : start.IsWritable ∧ (∀ moment ∈ history, moment.1.IsWritable) ∧ now.IsWritable)
    (unrelated
      : (∀ moment ∈ history, moment.2.isUnrelated id = true)
        ∧ (Turn.own event).isUnrelated id = true)
    (writes : event.isSaved = true)
    (done : event.perform ⟨ids, now⟩ (opened.afterTurns ids history) = (.ok (), saved))
    : ∃ content' state',
        saved.disk.visibleState = .text content'
        ∧ State.ofText content' = .ok state'
        ∧ (id ∈ state'.favorites ↔ id ∈ opened.store.ids) := by
  obtain ⟨marked, writable⟩ := opened_on_state stored visible read opens listed clocks.1 valid
  have reached : opened.KeepsFavorite id (opened.afterTurns ids history) :=
    Session.KeepsFavorite.afterTurns ⟨rfl, rfl, writable⟩ valid clocks.2.1 unrelated.1
  have kept : opened.KeepsFavorite id saved := by
    have last := reached.perform clocks.2.2 valid unrelated.2
    rwa [Turn.perform, done] at last
  have atStart : opened.paths = paths := by
    have empty := precedes_openSession ⟨ids, start⟩ paths disk drawn true
    rw [opens] at empty
    exact empty.paths
  have written := event.visibleState_of_saved writes
    (reached.paths.trans atStart ▸ stored) done
  -- The list that is read back is that of the favorites in memory, as many as at the opening.
  refine ⟨_, _, written, kept.writable.ofText_text, ?_⟩
  change id ∈ saved.store.favoriteIds ↔ _
  rw [Store.mem_favoriteIds, kept.favored, marked, List.count_pos_iff]

end

/-- A state with a bundled formula as its only favorite. -/
def rampState : String :=
  stateText [] [rampKey.id 0]

theorem ofText_rampState : State.ofText rampState = .ok ⟨[], [rampKey.id 0]⟩ :=
  State.ofText_stateText (by simp) (by simpa using rampKey.isValid_id 0)

/-- The disk with that state, and with a file in the place of the bundled one for single frames. -/
def rampDisk (singles : Text.File) : Disk :=
  ⟨singles, .missing, .text rampState, false, false, 0⟩

/-- The catalogue that is opened on that disk. -/
def openedOnRampState (singles : List Entry) (file : Text.File) : Session :=
  takeState ⟨fun _ => ⟨0⟩, openingTime⟩
    (bundledSession ⟨"library", some "state.json"⟩ (rampDisk file) singles [] 0)
    ⟨[], [rampKey.id 0]⟩

theorem openSession_rampDisk {file : Text.File} {singles : List Entry}
    (read : readBundle openingTime "library" false file = .ok singles)
    : openSession ⟨fun _ => ⟨0⟩, openingTime⟩ ⟨"library", some "state.json"⟩ (rampDisk file) 0 true
      = (.ok (), openedOnRampState singles file) := by
  have visible : (rampDisk file).visibleState = .text rampState := rfl
  rw [openSession_eq read rfl]
  simp only [loadUserState, bundledSession, visible, ofText_rampState]
  rfl

/-- The favorite stays in the state although its file goes away before a formula is added. -/
theorem favorite_recorded_ramp
    : let outside : Outside := ⟨fun _ => ⟨0⟩, openingTime⟩
      let opened := openedOnRampState [rampKey.entry openingTime 0] (.text "[w][Ramp]")
      let history : Turns := [(openingTime, .putBundle false .missing)]
      let outcome := (Event.edit (.add "x" "N" "Mine" false)).perform outside
        (opened.afterTurns outside.ids history)
      outcome.1 = .ok ()
        ∧ ∃ content state,
          outcome.2.disk.visibleState = .text content
          ∧ State.ofText content = .ok state
          ∧ rampKey.id 0 ∈ state.favorites := by
  intro outside opened history outcome
  have added : outcome = commitIfAllowed _ (.ok _) :=
    (Edit.perform_eq ..).trans (congrArg _ (addition_variable outside _))
  have done : outcome = (.ok (), outcome.2) := Prod.ext (by rw [added]; rfl) rfl
  obtain ⟨content, state, visible, read, listed⟩ :=
    favorite_recorded_iff rfl rfl ofText_rampState (List.mem_singleton.mpr rfl)
      (openSession_rampDisk rfl) (fun _ => Nat.two_pow_pos 128)
      ⟨isWritable_openingTime, List.forall_mem_singleton.mpr isWritable_openingTime,
        isWritable_openingTime⟩
      ⟨List.forall_mem_singleton.mpr rfl, rfl⟩ rfl done
  refine ⟨congrArg Prod.fst done, content, state, visible, read, listed.mpr ?_⟩
  exact List.mem_singleton.mpr rfl

/-- The favorite is gone from the state after a formula is added to a catalogue that was opened
without its file.
-/
theorem addition_drops_favorite
    : let outside : Outside := ⟨fun _ => ⟨0⟩, openingTime⟩
      let opened := openedOnRampState [] .missing
      let outcome := (Event.edit (.add "x" "N" "Mine" false)).perform outside opened
      openSession outside ⟨"library", some "state.json"⟩ (rampDisk .missing) 0 true
          = (.ok (), opened)
        ∧ State.ofText rampState = .ok ⟨[], [rampKey.id 0]⟩
        ∧ outcome.1 = .ok ()
        ∧ ∃ content state,
          outcome.2.disk.visibleState = .text content
          ∧ State.ofText content = .ok state
          ∧ state.favorites = [] := by
  intro outside opened outcome
  have added : outcome = commitIfAllowed _ (.ok _) :=
    (Edit.perform_eq ..).trans (congrArg _ (addition_variable outside opened))
  have done : outcome = (.ok (), outcome.2) := Prod.ext (by rw [added]; rfl) rfl
  have visible := (Event.edit (.add "x" "N" "Mine" false)).visibleState_of_saved rfl rfl done
  let entry := Labels.newEntry ⟨"x", "N", "Mine"⟩ ⟨0⟩ openingTime
  have store : outcome.2.store = ⟨[], [], [entry]⟩ := by
    rw [added]
    rfl
  have given : Labels.ofTexts "x" "N" "Mine" = .ok ⟨"x", "N", "Mine"⟩ := rfl
  have written : entry.IsWritable :=
    ⟨Nat.two_pow_pos 128, Labels.isTrimmed_of_ofTexts given, isWritable_openingTime,
      isWritable_openingTime⟩
  have writable : Store.IsWritable ⟨[], [], [entry]⟩ :=
    ⟨List.forall_mem_singleton.mpr written, fun _ known => absurd known List.not_mem_nil⟩
  rw [store] at visible
  exact ⟨openSession_rampDisk rfl, ofText_rampState, congrArg Prod.fst done, _, _, visible,
    writable.ofText_text, rfl⟩

end Wavetable.Catalogue
