import Wavetable.Proofs.Catalogue.Bundled
import Wavetable.Proofs.Catalogue.Progress

/-!
Catalogues stay consistent. No identifier occurs twice, the user's own formulas can be written and
read back, and the state on the disk can be loaded without a collision. Every event keeps this, so
it holds after any history.
-/

namespace Wavetable.Catalogue

-----------------------------------------------------------------------------------------
-- Loaded entries
-----------------------------------------------------------------------------------------

/-- The identifiers that a state gives. -/
def State.givenIds (state : State) : List Uuid :=
  state.entries.filterMap (·.id)

/-- The number of entries of a state for which an identifier has to be drawn. -/
def countUnnamed (entries : List StoredEntry) : Nat :=
  (entries.filter (·.id.isNone)).length

/-- An entry that is completed can be written if what is drawn for it can. -/
theorem StoredEntry.IsWritable.complete {entry : StoredEntry} (writable : entry.IsWritable)
    {outside : Outside} {drawn : Nat} (clock : outside.now.IsWritable)
    (valid : entry.id = none → (outside.ids drawn).IsValid)
    : (entry.complete outside drawn).IsWritable := by
  obtain ⟨id, labels, isFavorite, isUserCreated, created, modified⟩ := entry
  obtain ⟨idValid, trimmed, createdWritable, modifiedWritable⟩ := writable
  refine ⟨?_, trimmed, ?_, ?_⟩
  · cases id with
    | none => exact valid rfl
    | some id => exact idValid id rfl
  · cases created with
    | none => exact clock
    | some t => exact createdWritable t rfl
  · cases modified with
    | none => exact clock
    | some t => exact modifiedWritable t rfl

section
variable {ids : Nat → Uuid} {now : Timestamp} {drawn last : Nat} {before : List Uuid}

/-- The count of drawn identifiers after the first entry of a state. -/
def StoredEntry.drawnAfter (entry : StoredEntry) (drawn : Nat) : Nat :=
  if entry.id.isNone then drawn + 1 else drawn

theorem StoredEntry.drawnAfter_add (entry : StoredEntry) (rest : List StoredEntry) (drawn : Nat)
    : entry.drawnAfter drawn + countUnnamed rest = drawn + countUnnamed (entry :: rest) := by
  unfold drawnAfter countUnnamed
  cases named : entry.id with
  | none =>
      rw [List.filter_cons_of_pos (by rw [named]; rfl), List.length_cons]
      simp only [Option.isNone_none, if_true]
      omega
  | some id => simp [named]

/-- The identifier of the first entry, given or drawn, is taken without a collision. -/
theorem StoredEntry.take_id (entry : StoredEntry) {rest : List StoredEntry}
    (distinct : (before ++ (entry :: rest).filterMap (·.id)).Nodup)
    (fresh : Fresh ids drawn last (before ++ (entry :: rest).filterMap (·.id)))
    (within : drawn + countUnnamed (entry :: rest) ≤ last)
    : (before ++ [(entry.complete ⟨ids, now⟩ drawn).id] ++ rest.filterMap (·.id)).Nodup
      ∧ Fresh ids (entry.drawnAfter drawn) last
          (before ++ [(entry.complete ⟨ids, now⟩ drawn).id] ++ rest.filterMap (·.id)) := by
  rw [← entry.drawnAfter_add] at within
  cases named : entry.id with
  | some id =>
      simpa [complete, drawnAfter, named] using And.intro distinct fresh
  | none =>
      simp only [List.filterMap_cons, named] at distinct fresh
      have below : drawn < last := by
        simp only [drawnAfter, named, Option.isNone_none, if_true] at within
        omega
      have unused := fresh.unused drawn (Nat.le_refl _) below
      simp only [complete, drawnAfter, named, Option.getD_none, Option.isNone_none, if_true,
        List.append_assoc, List.singleton_append]
      refine ⟨List.nodup_middle.mpr (List.nodup_cons.mpr ⟨unused, distinct⟩), ?_⟩
      refine fresh.draw.subset fun id member => ?_
      simp only [List.mem_append, List.mem_cons, List.not_mem_nil, or_false] at member ⊢
      tauto

/-- The entries of a state are completed so that they can be written. -/
theorem isWritable_completeAll (clock : now.IsWritable) {entries : List StoredEntry} {drawn : Nat}
    (writable : ∀ entry ∈ entries, entry.IsWritable)
    (valid : ∀ k, drawn ≤ k → k < drawn + countUnnamed entries → (ids k).IsValid)
    : ∀ entry ∈ completeAll ⟨ids, now⟩ drawn entries, entry.IsWritable := by
  induction entries generalizing drawn with
  | nil => simp [completeAll]
  | cons entry rest ih =>
      obtain ⟨here, others⟩ := List.forall_mem_cons.mp writable
      have counted := entry.drawnAfter_add rest drawn
      have after : drawn ≤ entry.drawnAfter drawn := by
        unfold StoredEntry.drawnAfter
        split <;> omega
      have drawnValid : entry.id = none → (ids drawn).IsValid := by
        intro named
        simp only [StoredEntry.drawnAfter, named, Option.isNone_none, if_true] at counted
        exact valid drawn (Nat.le_refl _) (by omega)
      have first : (entry.complete ⟨ids, now⟩ drawn).IsWritable := here.complete clock drawnValid
      rw [completeAll]
      exact List.forall_mem_cons.mpr
        ⟨first, ih others fun k above below => valid k (after.trans above) (counted ▸ below)⟩

/-- The identifiers of completed entries collide neither with each other nor with those before. The
induction takes the first entry over to those before.
-/
theorem completeAll_ids {entries : List StoredEntry}
    (distinct : (before ++ entries.filterMap (·.id)).Nodup)
    (fresh : Fresh ids drawn last (before ++ entries.filterMap (·.id)))
    (within : drawn + countUnnamed entries ≤ last)
    : (before ++ (completeAll ⟨ids, now⟩ drawn entries).map (·.id)).Nodup
      ∧ Fresh ids (drawn + countUnnamed entries) last
          (before ++ (completeAll ⟨ids, now⟩ drawn entries).map (·.id)) := by
  induction entries generalizing drawn before with
  | nil => exact ⟨distinct, fresh⟩
  | cons entry rest ih =>
      obtain ⟨nextDistinct, nextFresh⟩ := entry.take_id distinct fresh within
      rw [← entry.drawnAfter_add] at within ⊢
      rw [completeAll, List.map_cons, List.append_cons]
      exact ih nextDistinct nextFresh within

/-- The identifiers that a state gives are among those of its completed entries. -/
theorem givenIds_sublist (outside : Outside) (entries : List StoredEntry) (drawn : Nat)
    : (entries.filterMap (·.id)).Sublist ((completeAll outside drawn entries).map (·.id)) := by
  induction entries generalizing drawn with
  | nil => exact List.Sublist.refl _
  | cons entry rest ih =>
      cases named : entry.id with
      | none => simpa [completeAll, named] using (ih (drawn + 1)).cons _
      | some id =>
          simpa [completeAll, named, StoredEntry.complete] using ih drawn

end

-----------------------------------------------------------------------------------------
-- Consistent catalogues
-----------------------------------------------------------------------------------------

/-- The identifiers of all entries. -/
def Store.ids (store : Store) : List Uuid :=
  store.every.map (·.id)

theorem Store.ids_eq (store : Store)
    : store.ids = store.bundled.map (·.id) ++ store.user.map (·.id) := by
  rw [ids, every, List.map_append]

/-- Entries that are written and read back with their favorites. Of a bundled one only the
identifier is written.
-/
structure Store.IsWritable (store : Store) : Prop where
  user : ∀ entry ∈ store.user, entry.IsWritable
  bundled : ∀ entry ∈ store.bundled, entry.id.IsValid

theorem Store.IsWritable.isValid_favoriteIds {store : Store} (writable : store.IsWritable)
    : ∀ id ∈ store.favoriteIds, id.IsValid := by
  intro id member
  obtain ⟨entry, marked, rfl⟩ := List.mem_map.mp member
  rcases List.mem_append.mp (List.mem_of_mem_filter marked) with bundled | own
  · exact writable.bundled entry bundled
  · exact (writable.user entry own).id

/-- The text of the store is the state with the user's formulas and the favorites. -/
theorem Store.IsWritable.ofText_text {store : Store} (writable : store.IsWritable)
    : State.ofText store.text = .ok ⟨store.user.map Entry.stored, store.favoriteIds⟩ :=
  State.ofText_stateText writable.user writable.isValid_favoriteIds

/-- A catalogue whose bundled entries are those of the files, whose own formulas can be written, in
which no identifier occurs twice, and whose state on the disk can be loaded without a collision.
Identifiers are drawn up to a last one.
-/
structure Session.Consistent (ids : Nat → Uuid) (last : Nat) (session : Session) : Prop where
  singles
    : ∀ now, readBundle now session.paths.library false session.disk.singles
        = .ok (session.store.singles.map (·.unmarked now))
  multis
    : ∀ now, readBundle now session.paths.library true session.disk.multis
        = .ok (session.store.multis.map (·.unmarked now))
  writable : ∀ entry ∈ session.store.user, entry.IsWritable
  distinct : session.store.ids.Nodup
  fresh : Fresh ids session.drawn last session.store.ids
  loads
    : ∀ content state,
        session.disk.visibleState = .text content
        → State.ofText content = .ok state
        → (session.store.bundled.map (·.id) ++ state.givenIds).Nodup
          ∧ Fresh ids session.drawn last (session.store.bundled.map (·.id) ++ state.givenIds)

section
variable {ids : Nat → Uuid} {last : Nat} {session : Session}

/-- A catalogue with the same files and bundled entries is consistent if its own formulas are. -/
theorem Session.Consistent.withStore (consistent : session.Consistent ids last) {store : Store}
    {drawn : Nat} (same : store.SameBundle session.store)
    (writable : ∀ entry ∈ store.user, entry.IsWritable) (distinct : store.ids.Nodup)
    (fresh : Fresh ids drawn last store.ids) (after : session.drawn ≤ drawn)
    : Session.Consistent ids last { session with store := store, drawn := drawn } where
  singles now := (consistent.singles now).trans (congrArg Except.ok (same.singles now).symm)
  multis now := (consistent.multis now).trans (congrArg Except.ok (same.multis now).symm)
  writable := writable
  distinct := distinct
  fresh := fresh
  loads content state visible read := by
    obtain ⟨loadDistinct, loadFresh⟩ := consistent.loads content state visible read
    rw [← same.map_id] at loadDistinct loadFresh
    exact ⟨loadDistinct, loadFresh.later after⟩

/-- What keeps the identifiers and leaves writable formulas keeps a catalogue consistent. -/
theorem Session.Consistent.withSameIds (consistent : session.Consistent ids last) {store : Store}
    (same : store.SameBundle session.store) (writable : ∀ entry ∈ store.user, entry.IsWritable)
    (kept : store.ids = session.store.ids)
    : (session.withStore store).Consistent ids last :=
  consistent.withStore same writable (kept ▸ consistent.distinct) (kept ▸ consistent.fresh)
    (Nat.le_refl _)

/-- The identifiers of bundled entries have 128 bits, since they are digests. -/
theorem Session.Consistent.isValid_bundled (consistent : session.Consistent ids last)
    : ∀ entry ∈ session.store.bundled, entry.id.IsValid := by
  have now : Timestamp := ⟨1970, 1, 1, 0, 0, 0, 0, none⟩
  intro entry member
  rcases List.mem_append.mp member with single | multi
  · exact isValid_id_of_readBundle (consistent.singles now) (entry.unmarked now)
      (List.mem_map_of_mem single)
  · exact isValid_id_of_readBundle (consistent.multis now) (entry.unmarked now)
      (List.mem_map_of_mem multi)

theorem Session.Consistent.isWritable (consistent : session.Consistent ids last)
    : session.store.IsWritable :=
  ⟨consistent.writable, consistent.isValid_bundled⟩

/-- A consistent catalogue stays so when its state is written. -/
theorem Session.Consistent.written (consistent : session.Consistent ids last)
    : Session.Consistent ids last
        { session with disk := { session.disk with state := .text session.store.text } } where
  singles := consistent.singles
  multis := consistent.multis
  writable := consistent.writable
  distinct := consistent.distinct
  fresh := consistent.fresh
  loads content state visible read := by
    obtain rfl : session.store.text = content := by
      simp only [Disk.visibleState] at visible
      split at visible
      next => contradiction
      next => exact Text.File.text.inj visible
    obtain rfl := Except.ok.inj (consistent.isWritable.ofText_text.symm.trans read)
    have given : State.givenIds ⟨session.store.user.map Entry.stored, session.store.favoriteIds⟩
        = session.store.user.map (·.id) := by
      simp [State.givenIds, List.filterMap_map, Function.comp_def, Entry.stored]
    rw [given, ← Store.ids_eq]
    exact ⟨consistent.distinct, consistent.fresh⟩

-----------------------------------------------------------------------------------------
-- Events
-----------------------------------------------------------------------------------------

theorem Entry.relabel_id (entry : Entry) (labels : Labels) (now : Timestamp)
    : (entry.relabel labels now).id = entry.id := rfl

theorem Entry.IsWritable.relabel {entry : Entry} {labels : Labels} {now : Timestamp}
    (writable : entry.IsWritable) (trimmed : labels.IsTrimmed) (clock : now.IsWritable)
    : (entry.relabel labels now).IsWritable :=
  ⟨writable.id, trimmed, writable.created, clock⟩

variable {now : Timestamp} {edit : Edit} {change : Change Unit}

/-- An entry that takes the place of one with the same part leaves that part of all as it is. -/
theorem map_set_same {α : Type} (part : Entry → α) {entries : List Entry} {index : Nat}
    {entry : Entry} (inside : index < entries.length) (same : part entry = part entries[index])
    : (entries.set index entry).map part = entries.map part := by
  have inside : index < (entries.map part).length := by simpa using inside
  have there : part entry = (entries.map part)[index] := by rw [List.getElem_map, same]
  rw [List.map_set, there, List.set_getElem_self]

theorem Store.sameBundle_withUser (store : Store) (user : List Entry)
    : (store.withUser user).SameBundle store :=
  ⟨fun _ => rfl, fun _ => rfl⟩

/-- The formulas of the user can be written after an edit in memory if they could before. -/
theorem Edit.Makes.isWritable_user (makes : edit.Makes ⟨ids, now⟩ session change)
    (writable : ∀ entry ∈ session.store.user, entry.IsWritable) (clock : now.IsWritable)
    (valid : session.drawn < change.session.drawn → (ids session.drawn).IsValid)
    : ∀ entry ∈ change.session.store.user, entry.IsWritable := by
  cases makes with
  | @added _ _ _ _ labels given =>
      have written : (labels.newEntry (ids session.drawn) now).IsWritable :=
        ⟨valid (Nat.lt_succ_self _), Labels.isTrimmed_of_ofTexts given, clock, clock⟩
      exact List.forall_mem_append.mpr ⟨writable, List.forall_mem_singleton.mpr written⟩
  | replaced found given =>
      obtain ⟨inside, rfl⟩ := List.getElem?_eq_some_iff.mp found
      intro entry member
      rcases List.mem_or_eq_of_mem_set member with old | rfl
      · exact writable entry old
      · exact (writable _ (List.getElem_mem inside)).relabel (Labels.isTrimmed_of_ofTexts given)
          clock
  | removed => exact fun entry member => writable entry (List.mem_of_mem_eraseIdx member)
  | flagged => exact Store.isWritable_user_mark writable _ _

/-- An edit in memory leaves the bundled entries the same, up to flags. -/
theorem Edit.Makes.sameBundle (makes : edit.Makes ⟨ids, now⟩ session change)
    : change.session.store.SameBundle session.store := by
  cases makes with
  | added => exact Store.sameBundle_withUser ..
  | replaced => exact Store.sameBundle_withUser ..
  | removed => exact Store.sameBundle_withUser ..
  | flagged => exact Store.sameBundle_mark ..

/-- The identifiers after an edit in memory are those from before with the next one that is drawn
behind them, or they are some of those from before.
-/
theorem Edit.Makes.ids_eq_or_sublist (makes : edit.Makes ⟨ids, now⟩ session change)
    : (change.session.store.ids = session.store.ids ++ [ids session.drawn]
        ∧ change.session.drawn = session.drawn + 1)
      ∨ (change.session.store.ids.Sublist session.store.ids
        ∧ change.session.drawn = session.drawn) := by
  have bundled := makes.sameBundle.map_id
  rw [Store.ids_eq, Store.ids_eq, bundled]
  cases makes with
  | added => exact .inl ⟨by simp [Change.withoutResult, Session.adding, Store.withUser,
      Labels.newEntry], rfl⟩
  | replaced found =>
      obtain ⟨inside, rfl⟩ := List.getElem?_eq_some_iff.mp found
      refine .inr ⟨(List.Sublist.refl _).append ?_, rfl⟩
      change ((session.store.user.set _ _).map (·.id)).Sublist _
      rw [map_set_same (·.id) inside (Entry.relabel_id ..)]
  | removed =>
      exact .inr ⟨(List.Sublist.refl _).append ((List.eraseIdx_sublist _ _).map _), rfl⟩
  | flagged =>
      refine .inr ⟨(List.Sublist.refl _).append ?_, rfl⟩
      change ((session.store.mark _ _).user.map (·.id)).Sublist _
      rw [Store.map_id_user_mark]

/-- An edit touches the store and the count of drawn identifiers alone. -/
theorem Edit.Makes.session_eq (makes : edit.Makes ⟨ids, now⟩ session change)
    : change.session
      = { session with store := change.session.store, drawn := change.session.drawn } := by
  cases makes <;> rfl

/-- An edit that is made in memory keeps a catalogue consistent. -/
theorem Session.Consistent.edited (consistent : session.Consistent ids last)
    (clock : now.IsWritable) (makes : edit.Makes ⟨ids, now⟩ session change)
    (within : change.session.drawn ≤ last)
    : change.session.Consistent ids last := by
  have same := makes.sameBundle
  have writable := makes.isWritable_user consistent.writable clock fun drawn =>
    consistent.fresh.valid session.drawn (Nat.le_refl _) (drawn.trans_le within)
  rw [makes.session_eq]
  rcases makes.ids_eq_or_sublist with ⟨more, drawn⟩ | ⟨fewer, drawn⟩
  · have below : session.drawn < last := by omega
    refine consistent.withStore same writable ?_ ?_ (by omega)
    · exact more ▸ nodup_append_fresh consistent.fresh consistent.distinct below
    · exact more ▸ drawn ▸ consistent.fresh.draw
  · refine consistent.withStore same writable ?_ ?_ (Nat.le_of_eq drawn.symm)
    · exact consistent.distinct.sublist fewer
    · exact drawn ▸ consistent.fresh.subset fewer.subset

/-- Saving keeps a catalogue consistent, whether it succeeds or fails. -/
theorem Session.Consistent.saved (consistent : session.Consistent ids last)
    : (save session).2.Consistent ids last := by
  cases outcome : save session with
  | mk result left =>
      cases result with
      | error => exact (save_error outcome).1 ▸ consistent
      | ok =>
          cases path : session.paths.state with
          | none =>
              obtain rfl : session = left := by simpa [save, path] using outcome
              exact consistent
          | some path' => exact (save_ok path outcome).2 ▸ consistent.written

/-- An edit that is committed keeps a catalogue consistent: it is saved, stays in memory or is
taken back.
-/
theorem Session.Consistent.committed (consistent : session.Consistent ids last)
    (clock : now.IsWritable) (makes : edit.Makes ⟨ids, now⟩ session change)
    (within : change.session.drawn ≤ last)
    : change.commit.2.Consistent ids last := by
  have edited := consistent.edited clock makes within
  have saved := edited.saved
  unfold Change.commit
  cases outcome : save change.session with
  | mk result left =>
      rw [outcome] at saved
      cases result with
      | ok => exact saved
      | error error =>
          obtain ⟨rfl, -⟩ := save_error outcome
          dsimp only
          split
          next => exact edited
          next =>
            have restored : change.undo change.session.store = session.store := by
              refine makes.restores fun drawn entry own taken => ?_
              have unused := consistent.fresh.unused session.drawn (Nat.le_refl _) (by omega)
              rw [Store.ids_eq] at unused
              exact unused (List.mem_append_right _ (List.mem_map.mpr ⟨entry, own, taken⟩))
            rw [restored, makes.session_eq]
            exact consistent.withStore (.refl _) consistent.writable consistent.distinct
              (consistent.fresh.later makes.precedes.drawn) makes.precedes.drawn

theorem Session.Consistent.loadedBundled (consistent : session.Consistent ids last)
    (outside : Outside)
    : (loadBundled outside session).2.Consistent ids last := by
  have same := session.store.sameBundle_reread outside.now
  rw [loadBundled_unchanged (consistent.singles _) (consistent.multis _)]
  refine consistent.withSameIds same consistent.writable ?_
  rw [Store.ids_eq, Store.ids_eq, same.map_id]
  rfl

/-- The identifiers of a store into which a state is taken. -/
theorem Store.ids_withState (store : Store) (user : List Entry) (favorites : List Uuid)
    : (store.withState user favorites).ids = store.bundled.map (·.id) ++ user.map (·.id) := by
  simp [ids, every, bundled, withState, Function.comp_def, markBundled, markUser,
    Entry.withFavorite]

theorem Store.sameBundle_withState (store : Store) (user : List Entry) (favorites : List Uuid)
    : (store.withState user favorites).SameBundle store :=
  ⟨fun _ => by simp [withState, markBundled], fun _ => by simp [withState, markBundled]⟩

/-- The formulas of a state that is loaded can be written again. -/
theorem isWritable_takeState (clock : now.IsWritable) {content : String} {state : State}
    (read : State.ofText content = .ok state)
    (valid
      : ∀ k, session.drawn ≤ k → k < (takeState ⟨ids, now⟩ session state).drawn → (ids k).IsValid)
    : ∀ entry ∈ (takeState ⟨ids, now⟩ session state).store.user, entry.IsWritable := by
  intro entry member
  obtain ⟨own, known, rfl⟩ := List.mem_map.mp member
  exact (isWritable_completeAll clock (State.isWritable_of_ofText read) valid own
    known).withFavorite _

/-- A state that is loaded keeps a catalogue consistent. -/
theorem Session.Consistent.taken (consistent : session.Consistent ids last)
    (clock : now.IsWritable) {content : String} {state : State}
    (visible : session.disk.visibleState = .text content)
    (read : State.ofText content = .ok state)
    (within : (takeState ⟨ids, now⟩ session state).drawn ≤ last)
    : (takeState ⟨ids, now⟩ session state).Consistent ids last := by
  obtain ⟨loadDistinct, loadFresh⟩ := consistent.loads content state visible read
  have writable := isWritable_takeState clock read fun k above below =>
    loadFresh.valid k above (below.trans_le within)
  obtain ⟨distinct, fresh⟩ := completeAll_ids loadDistinct loadFresh within
  rw [← Store.ids_withState _ _ state.favorites] at distinct fresh
  exact consistent.withStore (Store.sameBundle_withState ..) writable distinct fresh
    (Nat.le_add_right _ _)

theorem Session.Consistent.loadedUser (consistent : session.Consistent ids last)
    (clock : now.IsWritable) (within : (loadUserState ⟨ids, now⟩ session).2.drawn ≤ last)
    : (loadUserState ⟨ids, now⟩ session).2.Consistent ids last := by
  unfold loadUserState at within ⊢
  split
  next => exact consistent
  next path stored =>
    split
    next => exact consistent
    next => exact consistent
    next => exact consistent
    next content visible =>
      split
      next => exact consistent
      next state read =>
        simp only [stored, visible, read] at within
        exact consistent.taken clock visible read within

theorem Session.Consistent.filled (consistent : session.Consistent ids last) (full : Bool)
    : Session.Consistent ids last { session with disk := { session.disk with full := full } } :=
  ⟨consistent.singles, consistent.multis, consistent.writable, consistent.distinct,
    consistent.fresh, consistent.loads⟩

/-- Every event keeps a catalogue consistent. -/
theorem Session.Consistent.perform (consistent : session.Consistent ids last)
    (clock : now.IsWritable) (event : Event)
    (within : (event.perform ⟨ids, now⟩ session).2.drawn ≤ last)
    : (event.perform ⟨ids, now⟩ session).2.Consistent ids last := by
  cases event with
  | edit edit =>
      simp only [Event.perform, Edit.perform_eq] at within ⊢
      cases allowed : edit.change ⟨ids, now⟩ session with
      | error => exact consistent
      | ok change =>
          rw [allowed] at within
          exact consistent.committed clock (Edit.makes_of_change allowed)
            (change.precedes_commit.drawn.trans within)
  | save => exact consistent.saved
  | loadUser => exact consistent.loadedUser clock within
  | loadBundled => exact consistent.loadedBundled _
  | fill full => exact consistent.filled full

/-- A catalogue stays consistent through a history, by induction on its events. -/
theorem Session.Consistent.after (consistent : session.Consistent ids last) {history : History}
    (clocks : ∀ moment ∈ history, moment.1.IsWritable)
    (within : (session.after ids history).drawn ≤ last)
    : (session.after ids history).Consistent ids last := by
  induction history generalizing session with
  | nil => exact consistent
  | cons moment rest ih =>
      obtain ⟨here, others⟩ := List.forall_mem_cons.mp clocks
      have between := (Session.precedes_after ids _ rest).drawn.trans within
      exact ih (consistent.perform here moment.2 between) others within

end

end Wavetable.Catalogue
