import Wavetable.Proofs.Catalogue.Recorded

/-!
Entries that are looked up. The user's own formulas are searched for an update or a removal, and all
entries, the bundled ones first, for anything else. These searches agree exactly as far as
identifiers are distinct. Edits keep them distinct, but a state may give an identifier that is
taken.
-/

namespace Wavetable.Catalogue

-----------------------------------------------------------------------------------------
-- Searches
-----------------------------------------------------------------------------------------

section
variable {store : Store} {id : Uuid} {entry : Entry}

theorem Store.get?_eq (store : Store) (id : Uuid)
    : store.get? id
      = (store.bundled.find? (·.id = id)).or (store.user.find? (·.id = id)) :=
  List.find?_append

theorem Store.get?_eq_none : store.get? id = none ↔ id ∉ store.ids := by
  simp [get?, ids, List.find?_eq_none]

/-- A formula of the user is found by its identifier unless a bundled entry has it as well. -/
theorem Store.get?_of_user {earlier later : List Entry}
    (own : store.user = earlier ++ entry :: later)
    (others : ∀ other ∈ earlier, other.id ≠ entry.id)
    : store.get? entry.id = (store.bundled.find? (·.id = entry.id)).or (some entry) := by
  have none : earlier.find? (·.id = entry.id) = none := by simpa using others
  rw [get?_eq, own, List.find?_append, none, Option.none_or, List.find?_cons_of_pos (by simp)]

/-- Where no identifier occurs twice, no bundled entry has that of a formula of the user. -/
theorem Store.find?_bundled_of_distinct (distinct : store.ids.Nodup)
    (own : id ∈ store.user.map (·.id))
    : store.bundled.find? (·.id = id) = none := by
  rw [ids_eq] at distinct
  have apart : id ∉ store.bundled.map (·.id) := fun bundled =>
    List.disjoint_of_nodup_append distinct bundled own
  simpa [List.find?_eq_none] using apart

/-- With distinct identifiers, a formula of the user is the entry that is found by its identifier.
-/
theorem Store.get?_of_distinct {earlier later : List Entry} (distinct : store.ids.Nodup)
    (own : store.user = earlier ++ entry :: later)
    (others : ∀ other ∈ earlier, other.id ≠ entry.id)
    : store.get? entry.id = some entry := by
  have among : entry.id ∈ store.user.map (·.id) := by simp [own]
  rw [get?_of_user own others, find?_bundled_of_distinct distinct among, Option.none_or]

/-- Without a formula of the user its identifier is missing once. -/
theorem Store.ids_perm_of_removed {earlier later : List Entry}
    (own : store.user = earlier ++ entry :: later)
    : store.ids.Perm (entry.id :: (store.withUser (earlier ++ later)).ids) := by
  rw [ids_eq, ids_eq, own]
  simp only [withUser, List.map_append, List.map_cons, ← List.append_assoc]
  exact List.perm_middle

/-- The entry that is found is the first one with its identifier, and its flag is the one that is
set.
-/
theorem Store.split_of_get? (found : store.get? id = some entry)
    : ∃ earlier later,
        store.every = earlier ++ entry :: later
        ∧ entry.id = id
        ∧ (∀ other ∈ earlier, other.id ≠ id)
        ∧ ∀ flag, (store.mark id flag).every = earlier ++ entry.withFavorite flag :: later := by
  obtain ⟨named, earlier, later, split, others⟩ := List.find?_eq_some_iff_append.mp found
  have named : entry.id = id := by simpa using named
  have others : ∀ other ∈ earlier, other.id ≠ id := by simpa using others
  refine ⟨earlier, later, split, named, others, fun flag => ?_⟩
  have absent : earlier.any (·.id = id) = false := by simpa using others
  rw [every_mark, split, markFirst_append, absent, markFirst, if_pos named]
  rfl

/-- Reading the bundled entries at another time changes no more than their dates. -/
theorem Store.map_every_readAt {α : Type} {part : Entry → α}
    (free : ∀ (entry : Entry) now, part (entry.readAt now) = part entry) (store : Store)
    (now : Timestamp)
    : (store.readAt now).every.map part = store.every.map part := by
  have kept : ∀ entries : List Entry, (entries.map (·.readAt now)).map part = entries.map part :=
    fun entries => by rw [List.map_map]; exact List.map_congr_left fun entry _ => free entry now
  simp only [every, bundled, readAt, List.map_append, kept]

theorem Store.get?_readAt (store : Store) (now : Timestamp) (id : Uuid)
    (apart : store.bundled.find? (·.id = id) = none)
    : (store.readAt now).get? id = store.get? id := by
  have again : (store.readAt now).bundled = store.bundled.map (·.readAt now) := by
    simp [bundled, readAt]
  have none : (store.readAt now).bundled.find? (·.id = id) = none := by
    rw [again, List.find?_map]
    simpa [Entry.readAt, Function.comp_def] using apart
  rw [get?_eq, get?_eq, none, apart]
  rfl

end

-----------------------------------------------------------------------------------------
-- Edits that succeed
-----------------------------------------------------------------------------------------

section
variable {outside : Outside} {session after : Session} {id : Uuid}

/-- A change that is committed with success stands. -/
theorem Change.commit_ok {α : Type} {change : Change α} {result : α}
    (done : change.commit = (.ok result, after))
    : result = change.result ∧ after.store = change.session.store := by
  have kept := save_store change.session
  unfold commit at done
  split at done
  next outcome =>
    obtain ⟨same, rfl⟩ := Prod.mk.inj done
    rw [outcome] at kept
    exact ⟨(Except.ok.inj same).symm, kept⟩
  next => split at done <;> simp at done

theorem commitIfAllowed_ok {α : Type} {attempt : Except Error (Change α)} {result : α}
    (done : commitIfAllowed session attempt = (.ok result, after))
    : ∃ change, attempt = .ok change
        ∧ result = change.result ∧ after.store = change.session.store := by
  cases attempt with
  | error => simp [commitIfAllowed] at done
  | ok change => exact ⟨change, rfl, Change.commit_ok done⟩

/-- An update that succeeds gives new texts to the first formula of the user with the identifier,
and leaves it in its place.
-/
theorem update_ok {expression name category : String} {entry : Entry}
    (done : update outside session id expression name category = (.ok entry, after))
    : ∃ earlier current later labels,
        session.store.user = earlier ++ current :: later
        ∧ current.id = id
        ∧ (∀ other ∈ earlier, other.id ≠ id)
        ∧ Labels.ofTexts expression name category = .ok labels
        ∧ entry = current.relabel labels outside.now
        ∧ after.store = session.store.withUser (earlier ++ entry :: later) := by
  obtain ⟨change, made, result, store⟩ := commitIfAllowed_ok done
  simp only [replacement, bind_eq_ok, pure_eq_ok, Prod.exists] at made
  obtain ⟨index, current, found, labels, given, rfl⟩ := made
  obtain ⟨earlier, later, own, rfl, named, others⟩ := Store.findUser_first found
  have entry_eq : entry = current.relabel labels outside.now := result
  refine ⟨earlier, current, later, labels, own, named, others, checkLabels_ok given, entry_eq, ?_⟩
  rw [store, entry_eq]
  simp [Session.replacing, Session.withStore, own]

/-- A removal that succeeds takes the first formula of the user with the identifier out. -/
theorem delete_ok (done : delete session id = (.ok (), after))
    : ∃ earlier entry later,
        session.store.user = earlier ++ entry :: later
        ∧ entry.id = id
        ∧ (∀ other ∈ earlier, other.id ≠ id)
        ∧ after.store = session.store.withUser (earlier ++ later) := by
  obtain ⟨change, made, -, store⟩ := commitIfAllowed_ok done
  simp only [removal, bind_eq_ok, pure_eq_ok, Prod.exists] at made
  obtain ⟨index, entry, found, rfl⟩ := made
  obtain ⟨earlier, later, own, rfl, named, others⟩ := Store.findUser_first found
  refine ⟨earlier, entry, later, own, named, others, ?_⟩
  rw [store]
  simp [Session.removing, Session.withStore, own, List.eraseIdx_append]

/-- A toggle that succeeds turns the flag of the entry that is found. -/
theorem toggleFavorite_ok {flag : Bool} (done : toggleFavorite session id = (.ok flag, after))
    : ∃ entry, session.store.get? id = some entry
        ∧ flag = !entry.isFavorite
        ∧ after.store = session.store.mark id flag := by
  obtain ⟨change, made, result, store⟩ := commitIfAllowed_ok done
  unfold flagChange at made
  split at made
  next => contradiction
  next entry found =>
    obtain rfl := Except.ok.inj made
    obtain rfl : flag = !entry.isFavorite := result
    exact ⟨entry, found, rfl, store⟩

end

-----------------------------------------------------------------------------------------
-- Catalogues that can be opened again
-----------------------------------------------------------------------------------------

/-- The bundled files give the entries in memory, and entries are read back when they are written.
-/
structure Session.Standing (session : Session) : Prop where
  reads : ∀ isMultiFrame, session.Reads isMultiFrame
  writable : session.store.IsWritable

/-- The identifiers are distinct, and those that are drawn up to a last one are fresh. -/
structure Session.Distinct (ids : Nat → Uuid) (last : Nat) (session : Session) : Prop where
  distinct : session.store.ids.Nodup
  fresh : Fresh ids session.drawn last session.store.ids

section
variable {ids : Nat → Uuid} {now : Timestamp} {session opened : Session} {last : Nat}

/-- Every turn that leaves the bundled files as they are keeps a catalogue such that it can be
opened again.
-/
theorem Session.Standing.perform (standing : session.Standing) (clock : now.IsWritable)
    (valid : ∀ k, (ids k).IsValid) {turn : Turn}
    (keeps : ∀ isMultiFrame, turn.keepsBundle isMultiFrame = true)
    : (turn.perform ⟨ids, now⟩ session).Standing := by
  refine ⟨fun isMultiFrame => (standing.reads isMultiFrame).perform (keeps isMultiFrame), ?_⟩
  by_cases reread : turn = .own .loadBundled
  · have again : loadBundled ⟨ids, now⟩ session = _ :=
      (standing.reads false).loadBundled_eq (standing.reads true)
    rw [reread, Turn.perform, Event.perform, again]
    exact ⟨standing.writable.user,
      (session.store.sameBundle_reread now).isValid standing.writable.bundled⟩
  · exact standing.writable.perform clock valid reread

/-- By induction on the history. -/
theorem Session.Standing.afterTurns (standing : session.Standing) (valid : ∀ k, (ids k).IsValid)
    {history : Turns} (clocks : ∀ moment ∈ history, moment.1.IsWritable)
    (keeps : ∀ moment ∈ history, ∀ isMultiFrame, moment.2.keepsBundle isMultiFrame = true)
    : (session.afterTurns ids history).Standing := by
  induction history generalizing session with
  | nil => exact standing
  | cons moment rest ih =>
      obtain ⟨clock, clocks⟩ := List.forall_mem_cons.mp clocks
      obtain ⟨here, others⟩ := List.forall_mem_cons.mp keeps
      exact ih (standing.perform clock valid here) clocks others

/-- A catalogue that is opened can be opened again. -/
theorem Session.standing_of_opens {start : Timestamp} {paths : Paths} {disk : Disk} {drawn : Nat}
    (opens : openSession ⟨ids, start⟩ paths disk drawn true = (.ok (), opened))
    (clock : start.IsWritable) (valid : ∀ k, (ids k).IsValid)
    : opened.Standing := by
  obtain ⟨singles, multis, single, multi⟩ := readBundle_of_opens opens
  rw [openSession_eq single multi] at opens
  have bundled : (bundledSession paths disk singles multis drawn).Standing := by
    refine ⟨fun isMultiFrame => ?_, fun entry member => absurd member List.not_mem_nil,
      List.forall_mem_append.mpr
        ⟨isValid_id_of_readBundle single, isValid_id_of_readBundle multi⟩⟩
    cases isMultiFrame with
    | false => exact readBundle_again single
    | true => exact readBundle_again multi
  have loaded : (Turn.perform ⟨ids, start⟩ _ (.own .loadUser)).Standing :=
    bundled.perform clock valid fun _ => rfl
  rwa [Turn.perform, Event.perform, opens] at loaded

-----------------------------------------------------------------------------------------
-- Distinct identifiers
-----------------------------------------------------------------------------------------

theorem Session.precedes_afterTurns (ids : Nat → Uuid) (session : Session) (history : Turns)
    : session.Precedes (session.afterTurns ids history) := by
  induction history generalizing session with
  | nil => exact .refl session
  | cons moment rest ih => exact moment.2.precedes.trans (ih _)

theorem Store.SameEntries.ids_perm {left right : Store} (same : left.SameEntries right)
    : left.ids.Perm right.ids := by
  rw [Store.ids_eq, Store.ids_eq, Store.bundled, Store.bundled, same.singles, same.multis]
  exact (same.user.map _).append_left _

theorem Session.Distinct.edited (distinct : session.Distinct ids last) {edit : Edit}
    (within : (edit.perform ⟨ids, now⟩ session).2.drawn ≤ last)
    : (edit.perform ⟨ids, now⟩ session).2.Distinct ids last := by
  cases allowed : edit.change ⟨ids, now⟩ session with
  | error =>
      rw [edit.perform_eq, allowed]
      exact distinct
  | ok change =>
      have makes := Edit.makes_of_change allowed
      have later : change.session.drawn ≤ (edit.perform ⟨ids, now⟩ session).2.drawn := by
        rw [edit.perform_eq, allowed]
        exact change.precedes_commit.drawn
      rcases Edit.store_perform allowed with stands | same
      · -- What stands has one more identifier, which is fresh, or some of those from before.
        rcases makes.ids_eq_or_sublist with ⟨more, drawn⟩ | ⟨fewer, drawn⟩
        · have below : session.drawn < last := by omega
          refine ⟨?_, ?_⟩
          · rw [stands, more]
            exact nodup_append_fresh distinct.fresh distinct.distinct below
          · rw [stands, more]
            exact distinct.fresh.draw.later (drawn ▸ later)
        · rw [drawn] at later
          exact ⟨stands ▸ distinct.distinct.sublist fewer,
            (stands ▸ distinct.fresh.subset fewer.subset).later later⟩
      · have ids := same.ids_perm
        exact ⟨ids.nodup_iff.mpr distinct.distinct,
          (distinct.fresh.subset ids.subset).later edit.precedes.drawn⟩

/-- Identifiers stay distinct in every turn that loads no state. -/
theorem Session.Distinct.perform (distinct : session.Distinct ids last)
    (standing : session.Standing) {turn : Turn} (other : turn ≠ .own .loadUser)
    (within : (turn.perform ⟨ids, now⟩ session).drawn ≤ last)
    : (turn.perform ⟨ids, now⟩ session).Distinct ids last := by
  obtain ⟨nodup, fresh⟩ := distinct
  cases turn with
  | own event =>
      cases event with
      | edit edit => exact Session.Distinct.edited ⟨nodup, fresh⟩ within
      | save =>
          have kept : (Turn.perform ⟨ids, now⟩ session (.own .save)).store = session.store :=
            save_store session
          exact ⟨kept ▸ nodup, kept ▸ fresh.later session.precedes_save.drawn⟩
      | loadUser => contradiction
      | loadBundled =>
          have reread : loadBundled ⟨ids, now⟩ session = _ :=
            (standing.reads false).loadBundled_eq (standing.reads true)
          have same : (session.store.reread now).ids = session.store.ids := by
            rw [Store.ids_eq, Store.ids_eq, (session.store.sameBundle_reread now).map_id]
            rfl
          rw [Turn.perform, Event.perform, reread]
          exact ⟨same ▸ nodup, same ▸ fresh⟩
      | fill => exact ⟨nodup, fresh⟩
  | putBundle => exact ⟨nodup, fresh⟩
  | putState => exact ⟨nodup, fresh⟩
  | block => exact ⟨nodup, fresh⟩

/-- By induction on the history. -/
theorem Session.Distinct.afterTurns (distinct : session.Distinct ids last)
    (standing : session.Standing) (valid : ∀ k, (ids k).IsValid) {history : Turns}
    (clocks : ∀ moment ∈ history, moment.1.IsWritable)
    (keeps : ∀ moment ∈ history, ∀ isMultiFrame, moment.2.keepsBundle isMultiFrame = true)
    (others : ∀ moment ∈ history, moment.2 ≠ .own .loadUser)
    (within : (session.afterTurns ids history).drawn ≤ last)
    : (session.afterTurns ids history).Distinct ids last := by
  induction history generalizing session with
  | nil => exact distinct
  | cons moment rest ih =>
      obtain ⟨clock, clocks⟩ := List.forall_mem_cons.mp clocks
      obtain ⟨kept, keeps⟩ := List.forall_mem_cons.mp keeps
      obtain ⟨other, others⟩ := List.forall_mem_cons.mp others
      have between := (Session.precedes_afterTurns ids _ rest).drawn.trans within
      exact ih (distinct.perform standing other between) (standing.perform clock valid kept)
        clocks keeps others within

end

-----------------------------------------------------------------------------------------
-- Lookups after edits
-----------------------------------------------------------------------------------------

/-- The entries have a property in memory, and again when the files of the catalogue are opened. -/
def Session.Lasting (session : Session) (property : Store → Prop) : Prop :=
  property session.store
    ∧ (session.paths.state.isSome →
      ∀ outside drawn, ∃ reopened,
        openSession outside session.paths session.disk drawn true = (.ok (), reopened)
        ∧ property reopened.store)

section
variable {ids : Nat → Uuid} {now : Timestamp} {session after : Session} {id : Uuid}

/-- With distinct identifiers, what an edit leaves lasts if it does not depend on the dates of
bundled entries.
-/
theorem Session.Standing.lasting (standing : session.Standing) (clock : now.IsWritable)
    (valid : ∀ k, (ids k).IsValid) (edit : Edit)
    (done : edit.perform ⟨ids, now⟩ session = (.ok (), after)) (distinct : after.store.ids.Nodup)
    {property : Store → Prop} (holds : property after.store)
    (again : ∀ later, property (after.store.readAt later))
    : after.Lasting property := by
  refine ⟨holds, fun stored outside drawn => ?_⟩
  obtain ⟨path, stored⟩ := Option.isSome_iff_exists.mp stored
  have next : after.Standing := by
    have performed : (Turn.perform ⟨ids, now⟩ session (.own (.edit edit))).Standing :=
      standing.perform clock valid fun _ => rfl
    rwa [Turn.perform, Event.perform, done] at performed
  have paths : after.paths = session.paths := by
    have precedes : session.Precedes (edit.perform ⟨ids, now⟩ session).2 := edit.precedes
    rw [done] at precedes
    exact precedes.paths
  have visible := (Event.edit edit).visibleState_of_saved rfl (paths ▸ stored) done
  exact ⟨_, Session.opens_again (next.reads false outside.now) (next.reads true outside.now)
    next.writable distinct stored visible drawn, again outside.now⟩

theorem update_lookup (standing : session.Standing) (clock : now.IsWritable)
    (valid : ∀ k, (ids k).IsValid) {expression name category : String} {entry : Entry}
    (done : update ⟨ids, now⟩ session id expression name category = (.ok entry, after))
    : after.store.get? id = (session.store.bundled.find? (·.id = id)).or (some entry)
      ∧ (session.store.ids.Nodup → after.Lasting fun store => store.get? id = some entry) := by
  obtain ⟨earlier, current, later, labels, own, old, others, -, relabelled, store⟩ := update_ok done
  obtain rfl : entry.id = id := relabelled ▸ old
  have updated : after.store.user = earlier ++ entry :: later := by rw [store]; rfl
  have bundled : after.store.bundled = session.store.bundled := by rw [store]; rfl
  have found := Store.get?_of_user updated others
  rw [bundled] at found
  refine ⟨found, fun distinct => ?_⟩
  have same : after.store.ids = session.store.ids := by
    rw [Store.ids_eq, Store.ids_eq, updated, bundled, own]
    simp [old]
  have apart : after.store.bundled.find? (·.id = entry.id) = none :=
    Store.find?_bundled_of_distinct (same ▸ distinct) (by simp [updated])
  rw [← bundled, apart, Option.none_or] at found
  exact standing.lasting clock valid (.update entry.id expression name category)
    (congrArg Outcome.withoutResult done) (same ▸ distinct) found
    fun now => (Store.get?_readAt _ now _ apart).trans found

theorem delete_lookup (standing : session.Standing) (clock : now.IsWritable)
    (valid : ∀ k, (ids k).IsValid) (done : delete session id = (.ok (), after))
    : (after.store.get? id = none ↔ session.store.ids.count id = 1)
      ∧ (session.store.ids.Nodup → after.Lasting fun store => store.get? id = none) := by
  obtain ⟨earlier, entry, later, own, rfl, -, store⟩ := delete_ok done
  have before : session.store.ids.Perm (entry.id :: after.store.ids) :=
    store ▸ Store.ids_perm_of_removed own
  have gone : after.store.get? entry.id = none ↔ session.store.ids.count entry.id = 1 := by
    rw [Store.get?_eq_none, ← List.count_eq_zero, before.count_eq, List.count_cons_self]
    omega
  refine ⟨gone, fun distinct => ?_⟩
  have fewer := before.nodup_iff.mp distinct
  have absent : entry.id ∉ after.store.ids := (List.nodup_cons.mp fewer).1
  refine standing.lasting clock valid (.delete entry.id) done (List.nodup_cons.mp fewer).2
    (Store.get?_eq_none.mpr absent) fun now => Store.get?_eq_none.mpr ?_
  rwa [Store.ids, Store.map_every_readAt fun _ _ => rfl]

theorem toggle_lookup (standing : session.Standing) (clock : now.IsWritable)
    (valid : ∀ k, (ids k).IsValid) {flag : Bool}
    (done : toggleFavorite session id = (.ok flag, after))
    : ∃ earlier entry later,
        session.store.every = earlier ++ entry :: later
        ∧ session.store.get? id = some entry
        ∧ flag = !entry.isFavorite
        ∧ after.store.every = earlier ++ entry.withFavorite flag :: later
        ∧ (session.store.ids.Nodup →
          after.Lasting fun store =>
            store.every.map Entry.flag
              = earlier.map Entry.flag ++ (id, flag) :: later.map Entry.flag) := by
  obtain ⟨entry, found, turned, store⟩ := toggleFavorite_ok done
  obtain ⟨earlier, later, split, named, -, marked⟩ := Store.split_of_get? found
  have every : after.store.every = earlier ++ entry.withFavorite flag :: later := by
    rw [store, marked]
  refine ⟨earlier, entry, later, split, found, turned, every, fun distinct => ?_⟩
  have same : after.store.ids = session.store.ids := by
    rw [store]
    exact Store.map_every_mark (fun _ _ => rfl) ..
  have flags : after.store.every.map Entry.flag
      = earlier.map Entry.flag ++ (id, flag) :: later.map Entry.flag := by
    rw [every, List.map_append, List.map_cons, ← named]
    rfl
  refine standing.lasting clock valid (.toggle id) (congrArg Outcome.withoutResult done)
    (same ▸ distinct) flags fun now => ?_
  rw [Store.map_every_readAt fun _ _ => rfl, flags]

/-- Searches agree after an edit that succeeds, as far as identifiers are distinct. They are after
any history that loads no state if they were when the catalogue was opened. A formula that is
updated is found unless a bundled entry with its identifier hides it, one that is removed is found
no more unless another entry has its identifier, and a toggle turns the flag of the entry that is
found and of no other one in memory. With distinct identifiers all this lasts: it holds in memory
and after the catalogue is opened anew. Assumed are bundled files that stay as they are, identifiers
of 128 bits, and times that the clock can show.
-/
theorem lookups_cohere {start : Timestamp} {paths : Paths} {disk : Disk} {drawn : Nat}
    {opened : Session} {history : Turns}
    (opens : openSession ⟨ids, start⟩ paths disk drawn true = (.ok (), opened))
    (valid : ∀ k, (ids k).IsValid)
    (clocks : start.IsWritable ∧ (∀ moment ∈ history, moment.1.IsWritable) ∧ now.IsWritable)
    (keeps : ∀ moment ∈ history, ∀ isMultiFrame, moment.2.keepsBundle isMultiFrame = true)
    : let session := opened.afterTurns ids history
      (opened.store.ids.Nodup
        → Fresh ids opened.drawn session.drawn opened.store.ids
        → (∀ moment ∈ history, moment.2 ≠ .own .loadUser)
        → session.store.ids.Nodup)
      ∧ (∀ id expression name category entry after,
          update ⟨ids, now⟩ session id expression name category = (.ok entry, after)
          → after.store.get? id = (session.store.bundled.find? (·.id = id)).or (some entry)
            ∧ (session.store.ids.Nodup → after.Lasting fun store => store.get? id = some entry))
      ∧ (∀ id after,
          delete session id = (.ok (), after)
          → (after.store.get? id = none ↔ session.store.ids.count id = 1)
            ∧ (session.store.ids.Nodup → after.Lasting fun store => store.get? id = none))
      ∧ (∀ id flag after,
          toggleFavorite session id = (.ok flag, after)
          → ∃ earlier entry later,
              session.store.every = earlier ++ entry :: later
              ∧ session.store.get? id = some entry
              ∧ flag = !entry.isFavorite
              ∧ after.store.every = earlier ++ entry.withFavorite flag :: later
              ∧ (session.store.ids.Nodup →
                after.Lasting fun store =>
                  store.every.map Entry.flag
                    = earlier.map Entry.flag ++ (id, flag) :: later.map Entry.flag)) := by
  intro session
  have first := Session.standing_of_opens opens clocks.1 valid
  have standing : session.Standing := first.afterTurns valid clocks.2.1 keeps
  refine ⟨fun distinct fresh others => ?_,
    fun id expression name category entry after => update_lookup standing clocks.2.2 valid,
    fun id after => delete_lookup standing clocks.2.2 valid,
    fun id flag after => toggle_lookup standing clocks.2.2 valid⟩
  exact (Session.Distinct.afterTurns ⟨distinct, fresh⟩ first valid clocks.2.1 keeps others
    (Nat.le_refl _)).distinct

end

/-- A formula that was added is updated. It is found as it is now, in memory and when the catalogue
is opened anew.
-/
theorem lookups_cohere_update
    : let outside : Outside := ⟨fun k => ⟨k % 2 ^ 128⟩, openingTime⟩
      let opened := openedOn ⟨.missing, .missing, .missing, false, false, 0⟩
      let history : Turns := [(openingTime, .own (.edit (.add "x" "N" "Mine" false)))]
      let session := opened.afterTurns outside.ids history
      let entry := Labels.newEntry ⟨"x*x", "M", "Mine"⟩ ⟨0⟩ openingTime
      let outcome := update outside session ⟨0⟩ "x*x" "M" "Mine"
      session.store.ids.Nodup
        ∧ outcome.1 = .ok entry
        ∧ outcome.2.Lasting fun store => store.get? ⟨0⟩ = some entry := by
  intro outside opened history session entry outcome
  have added : session = (commitIfAllowed opened (.ok _)).2 :=
    congrArg Prod.snd ((Edit.perform_eq outside opened _).trans
      (congrArg _ (addition_variable outside opened)))
  have valid : ∀ k, (outside.ids k).IsValid := fun k => Nat.mod_lt _ (Nat.two_pow_pos 128)
  have once : session.drawn = 1 := by
    rw [added]
    rfl
  have fresh : Fresh outside.ids opened.drawn session.drawn opened.store.ids := by
    rw [once]
    refine ⟨fun k _ _ => valid k, fun j k _ _ below => ?_, fun k _ _ known => ?_⟩
    · omega
    · exact absurd known List.not_mem_nil
  have clock := isWritable_openingTime
  have opens : openSession outside ⟨"library", some "state.json"⟩
      ⟨.missing, .missing, .missing, false, false, 0⟩ 0 true = (.ok (), opened) := rfl
  have keeps : ∀ moment ∈ history, ∀ isMultiFrame, moment.2.keepsBundle isMultiFrame = true :=
    List.forall_mem_singleton.mpr fun _ => rfl
  have cohere := lookups_cohere opens valid ⟨clock, List.forall_mem_singleton.mpr clock, clock⟩
    keeps
  have distinct := cohere.1 List.nodup_nil fresh (List.forall_mem_singleton.mpr (by simp))
  have done : outcome.1 = .ok entry := by
    simp only [outcome, added]
    rfl
  exact ⟨distinct, done, (cohere.2.1 _ _ _ _ entry _ (Prod.ext done rfl)).2 distinct⟩

/-- A formula of the user with the identifier of the bundled one. -/
def takenEntry : Entry :=
  ⟨rampKey.id 0, "x", "N", "Mine", false, true, openingTime, openingTime⟩

theorem isWritable_takenEntry : takenEntry.IsWritable := by
  have given : Labels.ofTexts "x" "N" "Mine" = .ok ⟨"x", "N", "Mine"⟩ := rfl
  exact ⟨rampKey.isValid_id 0, Labels.isTrimmed_of_ofTexts given, isWritable_openingTime,
    isWritable_openingTime⟩

/-- A disk with the bundled formula, and with a state that gives its identifier to another one. -/
def takenDisk : Disk :=
  ⟨.text "[w][Ramp]", .missing, .text (stateText [takenEntry] []), false, false, 0⟩

/-- The catalogue that is opened on that disk. -/
def openedOnTaken : Session :=
  takeState ⟨.mk, openingTime⟩
    (bundledSession ⟨"library", some "state.json"⟩ takenDisk [rampKey.entry openingTime 0] [] 0)
    ⟨[takenEntry.stored], []⟩

theorem openSession_takenDisk
    : openSession ⟨.mk, openingTime⟩ ⟨"library", some "state.json"⟩ takenDisk 0 true
      = (.ok (), openedOnTaken) := by
  have visible : takenDisk.visibleState = .text (stateText [takenEntry] []) := rfl
  have read : State.ofText (stateText [takenEntry] []) = .ok ⟨[takenEntry.stored], []⟩ :=
    State.ofText_stateText (List.forall_mem_singleton.mpr isWritable_takenEntry) (by simp)
  have single : readBundle openingTime "library" false takenDisk.singles
      = .ok [rampKey.entry openingTime 0] := rfl
  rw [openSession_eq single rfl]
  simp only [loadUserState, bundledSession, visible, read]
  rfl

/-- The formula of the user is updated, but the bundled one is found. -/
theorem taken_identifier_hides_update
    : let entry := takenEntry.relabel ⟨"x*x", "M", "Mine"⟩ openingTime
      let outcome := update ⟨.mk, openingTime⟩ openedOnTaken (rampKey.id 0) "x*x" "M" "Mine"
      openSession ⟨.mk, openingTime⟩ ⟨"library", some "state.json"⟩ takenDisk 0 true
          = (.ok (), openedOnTaken)
        ∧ outcome.1 = .ok entry
        ∧ outcome.2.store.get? (rampKey.id 0) = some (rampKey.entry openingTime 0)
        ∧ outcome.2.store.get? (rampKey.id 0) ≠ some entry := by
  intro entry outcome
  have store : openedOnTaken.store = ⟨[rampKey.entry openingTime 0], [], [takenEntry]⟩ := rfl
  have found : openedOnTaken.store.findUser (rampKey.id 0) = .ok (0, takenEntry) := by
    simp [Store.findUser, store, takenEntry]
  have made : outcome = commitIfAllowed openedOnTaken
      (.ok (openedOnTaken.replacing 0 takenEntry entry)) := by
    simp only [outcome, update, replacement, found]
    rfl
  have after : outcome.2.store = ⟨[rampKey.entry openingTime 0], [], [entry]⟩ := by
    rw [made]
    rfl
  have bundled : outcome.2.store.get? (rampKey.id 0) = some (rampKey.entry openingTime 0) := by
    simp [Store.get?, Store.every, Store.bundled, after, BundleKey.entry]
  refine ⟨openSession_takenDisk, by rw [made]; rfl, bundled, ?_⟩
  rw [bundled]
  exact fun same => absurd (congrArg Entry.name (Option.some.inj same)) (by decide)

end Wavetable.Catalogue
