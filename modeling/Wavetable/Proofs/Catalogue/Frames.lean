import Wavetable.Proofs.Catalogue.Listing
import Wavetable.Proofs.Catalogue.Lookup
import Wavetable.Proofs.Formula.Trimming

/-!
What an edit leaves alone. An edit that succeeds changes one entry, adds one at the end or takes one
out, and all other entries stay as they are, in their order. An edit that is refused changes nothing
at all.
-/

namespace Wavetable.Catalogue

-----------------------------------------------------------------------------------------
-- Edits that are refused
-----------------------------------------------------------------------------------------

/-- The errors of an edit that is not even tried: its formula, its mode, its texts or its identifier
is at fault.
-/
def Error.isRefusal : Error → Bool
  | .invalidFormula _ | .needsFrameVariables | .needsNoFrameVariables => true
  | .invalidEntry _ => true
  | .unknownUserFormula _ | .unknownFormula _ => true
  | _ => false

section
variable {session after : Session} {error : Error} {α : Type}

/-- Saving does not refuse an edit. -/
theorem isRefusal_of_save (failed : save session = (.error error, after))
    : error.isRefusal = false := by
  unfold save at failed
  split at failed
  next => simp at failed
  next =>
    split at failed
    next => simp at failed
    next => simp [← Except.error.inj (Prod.mk.inj failed).1, Error.isRefusal]
    next => simp [← Except.error.inj (Prod.mk.inj failed).1, Error.isRefusal]

theorem Change.isRefusal_of_commit {change : Change α}
    (failed : change.commit = (.error error, after))
    : error.isRefusal = false := by
  unfold commit at failed
  split at failed
  next => simp at failed
  next outcome =>
    have saving := isRefusal_of_save outcome
    split at failed
    next => exact Except.error.inj (Prod.mk.inj failed).1 ▸ saving
    next => exact Except.error.inj (Prod.mk.inj failed).1 ▸ saving

/-- An edit that is refused leaves the catalogue and its files as they are. -/
theorem eq_of_refused {attempt : Except Error (Change α)}
    (failed : commitIfAllowed session attempt = (.error error, after))
    (refused : error.isRefusal = true)
    : after = session := by
  cases attempt with
  | error => exact (Prod.mk.inj failed).2.symm
  | ok change => exact absurd refused (Bool.eq_false_iff.mp (Change.isRefusal_of_commit failed))

end

-----------------------------------------------------------------------------------------
-- Edits that stand
-----------------------------------------------------------------------------------------

/-- A write succeeds exactly if nothing stands in its way. -/
theorem Disk.write_succeeds_iff {disk : Disk} {content : String}
    : (disk.write content).1 = .ok ()
      ↔ disk.blocked = false ∧ disk.full = false ∧ disk.state ≠ .directory := by
  obtain ⟨singles, multis, state, blocked, full, temporaries⟩ := disk
  cases blocked <;> cases full <;> cases state <;> simp [write, rename]

/-- Edits stand on these files: they are saved, or they stay in memory. -/
def Session.LetsStand (session : Session) : Prop :=
  session.paths.state = none ∨ session.disk.blocked = true
    ∨ (session.disk.full = false ∧ session.disk.state ≠ .directory)

section
variable {session after : Session} {α : Type} {change : Change α}

theorem Session.letsStand_of_saved (done : save session = (.ok (), after))
    : session.LetsStand ∧ after.LetsStand := by
  rcases Option.eq_none_or_eq_some session.paths.state with none | ⟨path, stored⟩
  · simp only [save, none] at done
    exact ⟨.inl none, (Prod.mk.inj done).2 ▸ .inl none⟩
  have written : (session.disk.write session.store.text).1 = .ok () := by
    simp only [save, stored] at done
    split at done
    next outcome => rw [outcome]
    next => simp at done
    next => simp at done
  obtain ⟨-, room, place⟩ := Disk.write_succeeds_iff.mp written
  obtain ⟨-, rfl⟩ := save_ok stored done
  exact ⟨.inr (.inr ⟨room, place⟩), .inr (.inr ⟨room, by simp⟩)⟩

/-- Where edits stand, saving fails only under a blocked directory. -/
theorem Session.letsStand_iff_of_error {error : Error} (failed : save session = (.error error, after))
    : session.LetsStand ↔ session.disk.blocked = true := by
  refine ⟨fun stands => ?_, fun blocked => .inr (.inl blocked)⟩
  unfold save at failed
  split at failed
  next => simp at failed
  next path stored =>
    have unwritten : (session.disk.write session.store.text).1 ≠ .ok () := by
      intro written
      split at failed
      next => simp at failed
      next outcome => simp [outcome] at written
      next outcome => simp [outcome] at written
    rcases stands with none | blocked | free
    · simp [stored] at none
    · exact blocked
    · by_contra clear
      exact unwritten (Disk.write_succeeds_iff.mpr ⟨Bool.eq_false_iff.mpr clear, free⟩)

/-- Where edits stand, one that is committed does, and the next one will. -/
theorem Change.commit_stands (stands : change.session.LetsStand)
    : change.commit.2.store = change.session.store ∧ change.commit.2.LetsStand := by
  have kept := save_store change.session
  unfold commit
  split
  next outcome =>
    rw [outcome] at kept
    exact ⟨kept, (Session.letsStand_of_saved outcome).2⟩
  next outcome =>
    obtain ⟨rfl, stays⟩ := save_error outcome
    rw [stays, (Session.letsStand_iff_of_error outcome).mp stands]
    exact ⟨rfl, stands⟩

/-- Where edits do not stand, one that is committed is taken back. -/
theorem Change.commit_falls (falls : ¬ change.session.LetsStand)
    : change.commit.2 = change.session.withStore (change.undo change.session.store) := by
  unfold commit
  split
  next outcome => exact absurd (Session.letsStand_of_saved outcome).1 falls
  next outcome =>
    obtain ⟨rfl, stays⟩ := save_error outcome
    rw [Session.letsStand_iff_of_error outcome, Bool.not_eq_true] at falls
    rw [stays, falls]
    rfl

end

-----------------------------------------------------------------------------------------
-- Toggles
-----------------------------------------------------------------------------------------

/-- An entry as it is after the flag of an identifier was set. -/
def Entry.setAt (id : Uuid) (flag : Bool) (entry : Entry) : Entry :=
  if entry.id = id then entry.withFavorite flag else entry

/-- The store with every entry changed in its place. -/
def Store.mapEvery (change : Entry → Entry) (store : Store) : Store where
  singles := store.singles.map change
  multis := store.multis.map change
  user := store.user.map change

theorem map_setAt_of_absent {id : Uuid} {flag : Bool} {entries : List Entry}
    (absent : id ∉ entries.map (·.id))
    : entries.map (Entry.setAt id flag) = entries := by
  refine (List.map_congr_left fun entry member => ?_).trans (List.map_id _)
  exact if_neg fun named => absent (List.mem_map.mpr ⟨entry, member, named⟩)

/-- Of distinct entries no other one than the first has the identifier. -/
theorem markFirst_of_distinct {entries : List Entry} (distinct : (entries.map (·.id)).Nodup)
    (id : Uuid) (flag : Bool)
    : markFirst id flag entries = entries.map (Entry.setAt id flag) := by
  induction entries with
  | nil => rfl
  | cons entry rest ih =>
      obtain ⟨apart, others⟩ := List.nodup_cons.mp distinct
      rw [markFirst, List.map_cons, Entry.setAt]
      split
      next named => rw [map_setAt_of_absent (named ▸ apart)]
      next => rw [ih others]

section
variable {session after : Session} {store : Store} {id : Uuid} {entry : Entry}

/-- With distinct identifiers a flag is set in one of the three lists at most. -/
theorem Store.mark_of_distinct (distinct : store.ids.Nodup) (id : Uuid) (flag : Bool)
    : store.mark id flag = store.mapEvery (Entry.setAt id flag) := by
  simp only [ids, every, bundled, List.map_append, List.nodup_append'] at distinct
  obtain ⟨⟨singles, multis, apart⟩, user, apart'⟩ := distinct
  have found : ∀ entries : List Entry,
      entries.any (·.id = id) = true ↔ id ∈ entries.map (·.id) := by simp
  unfold mark mapEvery
  split
  next single =>
    rw [found] at single
    rw [markFirst_of_distinct singles, map_setAt_of_absent (apart single),
      map_setAt_of_absent (apart' (List.mem_append_left _ single))]
  next single =>
    rw [found] at single
    rw [map_setAt_of_absent single]
    split
    next multi =>
      rw [found] at multi
      rw [markFirst_of_distinct multis,
        map_setAt_of_absent (apart' (List.mem_append_right _ multi))]
    next multi =>
      rw [found] at multi
      rw [markFirst_of_distinct user, map_setAt_of_absent multi]

theorem Store.get?_mark (found : store.get? id = some entry) (flag : Bool)
    : (store.mark id flag).get? id = some (entry.withFavorite flag) := by
  obtain ⟨earlier, later, -, rfl, others, marked⟩ := Store.split_of_get? found
  have none : earlier.find? (·.id = entry.id) = none := by simpa using others
  rw [get?, marked, List.find?_append, none, Option.none_or]
  exact List.find?_cons_of_pos (by simp [Entry.withFavorite])

theorem toggleFavorite_eq (found : session.store.get? id = some entry)
    : toggleFavorite session id = (session.flagging id entry.isFavorite).commit := by
  simp only [toggleFavorite, flagChange, found, commitIfAllowed]

/-- Of two toggles the second takes back what the first did, since both stand or both fall. -/
theorem toggleFavorite_twice (session : Session) (id : Uuid)
    : (toggleFavorite (toggleFavorite session id).2 id).2.store = session.store := by
  cases found : session.store.get? id with
  | none =>
      have refused : toggleFavorite session id = (.error (.unknownFormula id), session) := by
        simp only [toggleFavorite, flagChange, found, commitIfAllowed]
      rw [refused, refused]
  | some entry =>
      have first := toggleFavorite_eq found
      by_cases stands : (session.flagging id entry.isFavorite).session.LetsStand
      · obtain ⟨marked, next⟩ := Change.commit_stands stands
        rw [← first] at marked next
        have again : (toggleFavorite session id).2.store.get? id
            = some (entry.withFavorite !entry.isFavorite) := by
          rw [marked]
          exact Store.get?_mark found _
        rw [toggleFavorite_eq again]
        refine (Change.commit_stands next).1.trans ?_
        change (toggleFavorite session id).2.store.mark id (!(!entry.isFavorite)) = session.store
        rw [marked, Bool.not_not]
        exact (Store.mark_mark ..).trans (Store.mark_same found)
      · have restored : (session.flagging id entry.isFavorite).commit.2 = session := by
          rw [Change.commit_falls stands, Session.flagging_restores found]
          rfl
        rw [first, restored, first, restored]

end

-----------------------------------------------------------------------------------------
-- Bundled entries and modes
-----------------------------------------------------------------------------------------

/-- No bundled entry counts as made by a user. -/
def Store.IsPackaged (store : Store) : Prop :=
  ∀ entry ∈ store.bundled, entry.isUserCreated = false

theorem isUserCreated_of_readBundle {now : Timestamp} {library : String} {isMultiFrame : Bool}
    {file : Text.File} {entries : List Entry}
    (read : readBundle now library isMultiFrame file = .ok entries)
    : ∀ entry ∈ entries, entry.isUserCreated = false := by
  cases file with
  | missing =>
      obtain rfl := Except.ok.inj read
      simp
  | directory => contradiction
  | garbled => contradiction
  | text content =>
      obtain rfl := Except.ok.inj read
      refine fun entry member => ?_
      obtain ⟨_, -, rfl⟩ := List.mem_map.mp member
      rfl

section
variable {outside : Outside} {session after : Session} {expression name category : String}
  {isMultiFrame : Bool} {id : Uuid} {entry : Entry}

theorem Store.IsPackaged.along (packaged : session.store.IsPackaged)
    (keeps : ∀ isMultiFrame, session.KeepsBundle isMultiFrame after)
    : after.store.IsPackaged := by
  have same : after.store.SameBundle session.store := ⟨(keeps false).entries, (keeps true).entries⟩
  have packaged : ∀ own ∈ session.store.bundled.map (·.isUserCreated), own = false :=
    List.forall_mem_map.mpr packaged
  rw [← same.map_bundled fun _ _ => rfl] at packaged
  exact List.forall_mem_map.mp packaged

theorem Store.kept_isPackaged : Store.Kept Store.IsPackaged where
  edited edit packaged := packaged.along fun _ => edit.keepsBundle
  loadedUser packaged := packaged.along fun _ => keepsBundle_loadUserState
  loadedBundled packaged := forall_bundled_of_reads isUserCreated_of_readBundle packaged

/-- The mode of a formula does not depend on the blanks at its ends. -/
theorem mode_of_checkMode (passed : checkMode expression isMultiFrame = .ok ())
    : ∃ formula, Formula.compile (Text.trim expression) = .ok formula
        ∧ formula.mode = .ofFlag isMultiFrame := by
  unfold checkMode at passed
  split at passed
  next => contradiction
  next formula compiled =>
    split at passed
    next mode =>
      obtain ⟨tree, parsed, rfl⟩ := Formula.compile_eq_ok_iff.mp compiled
      rcases Formula.parseSource_trim expression with ⟨e, read, trimmed⟩ | ⟨_, _, _, refused, -⟩
      · obtain rfl : tree = e := Except.ok.inj (parsed.symm.trans read)
        exact ⟨_, Formula.compile_eq_ok_iff.mpr ⟨_, trimmed, rfl⟩, mode⟩
      · rw [parsed] at refused
        contradiction
    next => split at passed <;> contradiction

-----------------------------------------------------------------------------------------
-- Edits that succeed
-----------------------------------------------------------------------------------------

/-- A formula with the given texts is added behind the others, and is the last one of its mode. -/
structure Store.Added (before after : Store) (given : Labels) (isMultiFrame : Bool) (entry : Entry)
    : Prop where
  labels : entry.labels = given
  own : entry.isUserCreated = true
  store : after = before.withUser (before.user ++ [entry])
  last : after.all isMultiFrame = before.all isMultiFrame ++ [entry]
  others : after.all (!isMultiFrame) = before.all (!isMultiFrame)
  absent : entry ∉ after.all (!isMultiFrame)

/-- The formula of the user with an identifier gets the given texts and stays where it is. -/
structure Store.Updated (before after : Store) (id : Uuid) (given : Labels) (current entry : Entry)
    : Prop where
  target : before.get? id = some current
  labels : entry.labels = given
  id : entry.id = current.id
  created : entry.created = current.created
  favorite : entry.isFavorite = current.isFavorite
  own : entry.isUserCreated = current.isUserCreated
  store
    : ∃ earlier later,
        before.user = earlier ++ current :: later
        ∧ after = before.withUser (earlier ++ entry :: later)

/-- The formula of the user with an identifier is taken out. -/
structure Store.Deleted (before after : Store) (id : Uuid) (entry : Entry) : Prop where
  target : before.get? id = some entry
  gone : id ∉ after.ids
  store
    : ∃ earlier later,
        before.user = earlier ++ entry :: later
        ∧ after = before.withUser (earlier ++ later)

/-- The flag of the entry with an identifier is turned, whichever list it is in. -/
structure Store.Toggled (before after : Store) (id : Uuid) (flag : Bool) (entry : Entry)
    : Prop where
  target : before.get? id = some entry
  turned : flag = !entry.isFavorite
  store : after = before.mapEvery (Entry.setAt id flag)

/-- A formula behind the others is the last one of its mode, and is not listed under the other one.
-/
theorem Store.all_append (store : Store) (entry : Entry) (isMultiFrame : Bool)
    : (store.withUser (store.user ++ [entry])).all isMultiFrame
      = store.all isMultiFrame
        ++ if entry.mode? = some (.ofFlag isMultiFrame) then [entry] else [] := by
  have kept : (store.withUser (store.user ++ [entry])).bundledOf isMultiFrame
      = store.bundledOf isMultiFrame := rfl
  rw [all, all, kept, List.append_assoc]
  simp only [withUser, List.filter_append, List.filter_cons, List.filter_nil, decide_eq_true_eq]

/-- An addition that succeeds puts a formula with trimmed texts behind the others. -/
theorem add_ok
    (done : add outside session expression name category isMultiFrame = (.ok entry, after))
    : checkMode expression isMultiFrame = .ok ()
      ∧ entry
        = Labels.newEntry ⟨Text.trim expression, Text.trim name, Text.trim category⟩
            (outside.ids session.drawn) outside.now
      ∧ after.store = session.store.withUser (session.store.user ++ [entry]) := by
  obtain ⟨change, made, rfl, store⟩ := commitIfAllowed_ok done
  simp only [addition, bind_eq_ok, pure_eq_ok] at made
  obtain ⟨⟨⟩, passed, labels, given, rfl⟩ := made
  obtain rfl := Labels.eq_of_ofTexts (checkLabels_ok given)
  exact ⟨passed, rfl, store⟩

theorem add_added (packaged : session.store.IsPackaged)
    (done : add outside session expression name category isMultiFrame = (.ok entry, after))
    : session.store.Added after.store
        ⟨Text.trim expression, Text.trim name, Text.trim category⟩ isMultiFrame entry := by
  obtain ⟨passed, added, store⟩ := add_ok done
  obtain ⟨formula, compiled, mode⟩ := mode_of_checkMode passed
  have own : entry.isUserCreated = true := added ▸ rfl
  have text : entry.expression = Text.trim expression := added ▸ rfl
  have listed : entry.mode? = some (.ofFlag isMultiFrame) := by
    rw [Entry.mode?, text, compiled, ← mode]
  have unlisted : entry.mode? ≠ some (.ofFlag !isMultiFrame) := by
    rw [listed]
    exact fun same => Bool.not_ne_self _ (ofFlag_inj (Option.some.inj same)).symm
  have others : after.store.all (!isMultiFrame) = session.store.all (!isMultiFrame) := by
    rw [store, Store.all_append, if_neg unlisted, List.append_nil]
  refine ⟨added ▸ rfl, own, store, ?_, others, fun member => ?_⟩
  · rw [store, Store.all_append, if_pos listed]
  · -- it is neither among the formulas of the user there nor among the bundled ones
    rw [others] at member
    rcases List.mem_append.mp member with bundled | mine
    · have inside : entry ∈ session.store.bundled := by
        cases isMultiFrame with
        | false => exact List.mem_append_right _ bundled
        | true => exact List.mem_append_left _ bundled
      exact absurd own (Bool.eq_false_iff.mp (packaged entry inside))
    · exact Store.not_mem_listed unlisted mine

theorem update_updated (distinct : session.store.ids.Nodup)
    (done : update outside session id expression name category = (.ok entry, after))
    : ∃ current,
        session.store.Updated after.store id
          ⟨Text.trim expression, Text.trim name, Text.trim category⟩ current entry := by
  obtain ⟨earlier, current, later, labels, own, rfl, others, given, rfl, store⟩ := update_ok done
  obtain rfl := Labels.eq_of_ofTexts given
  exact ⟨current, Store.get?_of_distinct distinct own others, rfl, rfl, rfl, rfl, rfl,
    earlier, later, own, store⟩

theorem delete_deleted (distinct : session.store.ids.Nodup)
    (done : delete session id = (.ok (), after))
    : ∃ entry, session.store.Deleted after.store id entry := by
  obtain ⟨earlier, entry, later, own, rfl, others, store⟩ := delete_ok done
  refine ⟨entry, Store.get?_of_distinct distinct own others, ?_, earlier, later, own, store⟩
  have before : session.store.ids.Perm (entry.id :: after.store.ids) :=
    store ▸ Store.ids_perm_of_removed own
  exact (List.nodup_cons.mp (before.nodup_iff.mp distinct)).1

theorem toggleFavorite_toggled (distinct : session.store.ids.Nodup) {flag : Bool}
    (done : toggleFavorite session id = (.ok flag, after))
    : ∃ entry, session.store.Toggled after.store id flag entry := by
  obtain ⟨entry, found, turned, store⟩ := toggleFavorite_ok done
  exact ⟨entry, found, turned, store.trans (Store.mark_of_distinct distinct id flag)⟩

end

/-- In every catalogue that a history leads to and whose identifiers are distinct, an addition that
succeeds puts one formula of the user with trimmed texts behind all others, where it is listed last
under the mode that was asked for and not under the other one. An update leaves the formula in its
place and gives it other texts, a removal takes out the formula that has the identifier, and a
toggle turns the flag of the entry that has it. All other entries stay as they are, in their order.
Two toggles restore all entries, whether or not they can be saved. What is refused for its formula,
its mode or its texts leaves the catalogue and its files as they are.
-/
theorem edits_leave_others (outside current : Outside) (paths : Paths) (disk : Disk) (drawn : Nat)
    (autoload : Bool) (ids : Nat → Uuid) (history : Turns)
    (distinct
      : ((openSession outside paths disk drawn autoload).2.afterTurns ids history).store.ids.Nodup)
    : let session := (openSession outside paths disk drawn autoload).2.afterTurns ids history
      (∀ expression name category isMultiFrame entry after,
          add current session expression name category isMultiFrame = (.ok entry, after)
          → session.store.Added after.store
              ⟨Text.trim expression, Text.trim name, Text.trim category⟩ isMultiFrame entry)
        ∧ (∀ id expression name category entry after,
            update current session id expression name category = (.ok entry, after)
            → ∃ target,
                session.store.Updated after.store id
                  ⟨Text.trim expression, Text.trim name, Text.trim category⟩ target entry)
        ∧ (∀ id after,
            delete session id = (.ok (), after)
            → ∃ target, session.store.Deleted after.store id target)
        ∧ (∀ id flag after,
            toggleFavorite session id = (.ok flag, after)
            → ∃ target, session.store.Toggled after.store id flag target)
        ∧ (∀ id, (toggleFavorite (toggleFavorite session id).2 id).2.store = session.store)
        ∧ (∀ expression name category isMultiFrame error after,
            add current session expression name category isMultiFrame = (.error error, after)
            → error.isRefusal = true
            → after = session)
        ∧ (∀ id expression name category error after,
            update current session id expression name category = (.error error, after)
            → error.isRefusal = true
            → after = session) := by
  intro session
  have packaged : session.store.IsPackaged :=
    Store.kept_isPackaged.afterTurns
      (Store.kept_isPackaged.opened (by simp [Store.IsPackaged, Store.bundled, Store.empty]) paths
        disk drawn autoload)
      history
  exact ⟨fun _ _ _ _ _ _ done => add_added packaged done,
    fun _ _ _ _ _ _ done => update_updated distinct done,
    fun _ _ done => delete_deleted distinct done,
    fun _ _ _ done => toggleFavorite_toggled distinct done,
    fun id => toggleFavorite_twice session id,
    fun _ _ _ _ _ _ failed refused => eq_of_refused failed refused,
    fun _ _ _ _ _ _ failed refused => eq_of_refused failed refused⟩

/-- A formula with blanks around it is added to a catalogue with one bundled formula. -/
theorem edits_leave_others_trimmed
    : let current : Outside := ⟨.mk, openingTime⟩
      let entry := Labels.newEntry ⟨"x", "N", "Mine"⟩ ⟨0⟩ openingTime
      let outcome := add current openedOnRamp " x " "N" "Mine " false
      let nameless := add current openedOnRamp "x" " " "Mine" false
      let twice := toggleFavorite (toggleFavorite openedOnRamp (rampKey.id 0)).2 (rampKey.id 0)
      openedOnRamp.store.ids.Nodup
        ∧ outcome.1 = .ok entry
        ∧ outcome.2.store.all false = openedOnRamp.store.all false ++ [entry]
        ∧ entry ∉ outcome.2.store.all true
        ∧ nameless.1 = .error (.invalidEntry ["name"])
        ∧ nameless.2 = openedOnRamp
        ∧ twice.2.store = openedOnRamp.store := by
  intro current entry outcome nameless twice
  have distinct : openedOnRamp.store.ids.Nodup := by
    simp [openedOnRamp_store, Store.ids, Store.every, Store.bundled]
  have single : checkMode " x " false = .ok () := checkMode_variable rfl
  have labelled : checkLabels " x " "N" "Mine " = .ok ⟨"x", "N", "Mine"⟩ := rfl
  have done : outcome.1 = .ok entry := by
    simp only [outcome, add, addition, single, labelled]
    rfl
  have single' : checkMode "x" false = .ok () := checkMode_variable rfl
  have blank : checkLabels "x" " " "Mine" = .error (.invalidEntry ["name"]) := rfl
  have refused : nameless.1 = .error (.invalidEntry ["name"]) := by
    simp only [nameless, add, addition, single', blank]
    rfl
  obtain ⟨adds, -, -, -, toggles, refuses, -⟩ := edits_leave_others current current
    ⟨"library", some "state.json"⟩ ⟨.text "[w][Ramp]", .missing, .missing, false, false, 0⟩ 0 true
    .mk [] distinct
  have added := adds _ _ _ _ entry _ (Prod.ext done rfl)
  exact ⟨distinct, done, added.last, added.absent, refused,
    refuses _ _ _ _ _ _ (Prod.ext refused rfl) rfl, toggles _⟩

end Wavetable.Catalogue
