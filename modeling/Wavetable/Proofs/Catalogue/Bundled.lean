import Mathlib.Data.List.Nodup
import Wavetable.Proofs.Catalogue.StateText
import Wavetable.Proofs.Catalogue.Undo

/-!
Bundled entries and identifiers over time. Whatever happens to its flags and dates, a bundled entry
is the one that its file gives, and identifiers that are drawn do not collide.
-/

namespace Wavetable.Catalogue

-----------------------------------------------------------------------------------------
-- Bundled entries
-----------------------------------------------------------------------------------------

/-- An entry with the time for its dates at which it is read. -/
def Entry.readAt (now : Timestamp) (entry : Entry) : Entry :=
  { entry with created := now, modified := now }

/-- A bundled entry as its file gives it at a time, before it becomes a favorite. -/
def Entry.unmarked (now : Timestamp) (entry : Entry) : Entry :=
  (entry.readAt now).withFavorite false

@[simp]
theorem Entry.unmarked_id (now : Timestamp) (entry : Entry)
    : (entry.unmarked now).id = entry.id := rfl

@[simp]
theorem Entry.unmarked_withFavorite (now : Timestamp) (entry : Entry) (flag : Bool)
    : (entry.withFavorite flag).unmarked now = entry.unmarked now := rfl

@[simp]
theorem Entry.unmarked_unmarked (before now : Timestamp) (entry : Entry)
    : (entry.unmarked before).unmarked now = entry.unmarked now := rfl

/-- Reading a bundled text at another time gives the same entries with other dates. -/
theorem map_unmarked_bundle (before now : Timestamp) (isMultiFrame : Bool) (text : String)
    : (bundle before isMultiFrame text).map (·.unmarked now) = bundle now isMultiFrame text := by
  simp only [bundle, List.map_map]
  rfl

theorem isValid_id_of_bundle {now : Timestamp} {isMultiFrame : Bool} {text : String}
    {entry : Entry} (member : entry ∈ bundle now isMultiFrame text)
    : entry.id.IsValid := by
  obtain ⟨⟨key, ordinal⟩, -, rfl⟩ := List.mem_map.mp member
  exact key.isValid_id ordinal

section
variable {now : Timestamp} {library : String} {isMultiFrame : Bool} {file : Text.File}
  {entries : List Entry}

/-- A bundled file that is read once is read at any other time, with the same entries. -/
theorem readBundle_again (read : readBundle now library isMultiFrame file = .ok entries)
    (later : Timestamp)
    : readBundle later library isMultiFrame file = .ok (entries.map (·.unmarked later)) := by
  cases file with
  | missing =>
      obtain rfl := Except.ok.inj read
      rfl
  | directory => contradiction
  | garbled => contradiction
  | text content =>
      obtain rfl := Except.ok.inj read
      rw [map_unmarked_bundle]
      rfl

theorem isValid_id_of_readBundle
    (read : readBundle now library isMultiFrame file = .ok entries)
    : ∀ entry ∈ entries, entry.id.IsValid := by
  cases file with
  | missing =>
      obtain rfl := Except.ok.inj read
      simp
  | directory => contradiction
  | garbled => contradiction
  | text content =>
      obtain rfl := Except.ok.inj read
      exact fun entry => isValid_id_of_bundle

end

/-- Two stores have the same bundled entries up to flags and dates. -/
structure Store.SameBundle (left right : Store) : Prop where
  singles : ∀ now, left.singles.map (·.unmarked now) = right.singles.map (·.unmarked now)
  multis : ∀ now, left.multis.map (·.unmarked now) = right.multis.map (·.unmarked now)

theorem Store.SameBundle.refl (store : Store) : store.SameBundle store :=
  ⟨fun _ => rfl, fun _ => rfl⟩

/-- What depends on neither flags nor dates is the same for the bundled entries of both. -/
theorem Store.SameBundle.map_bundled {left right : Store} (same : left.SameBundle right)
    {α : Type} {part : Entry → α}
    (free : ∀ (entry : Entry) now, part (entry.unmarked now) = part entry)
    : left.bundled.map part = right.bundled.map part := by
  have now : Timestamp := ⟨1970, 1, 1, 0, 0, 0, 0, none⟩
  have kept : ∀ entries : List Entry, (entries.map (·.unmarked now)).map part = entries.map part :=
    fun entries => by rw [List.map_map]; exact List.map_congr_left fun entry _ => free entry now
  rw [bundled, bundled, List.map_append, List.map_append, ← kept left.singles, same.singles, kept,
    ← kept left.multis, same.multis, kept]

theorem Store.SameBundle.map_id {left right : Store} (same : left.SameBundle right)
    : left.bundled.map (·.id) = right.bundled.map (·.id) :=
  same.map_bundled fun _ _ => rfl

/-- The store with its bundled entries as their files give them at a time, none a favorite. -/
def Store.reread (store : Store) (now : Timestamp) : Store where
  singles := store.singles.map (·.unmarked now)
  multis := store.multis.map (·.unmarked now)
  user := store.user

theorem Store.sameBundle_reread (store : Store) (now : Timestamp)
    : (store.reread now).SameBundle store :=
  ⟨fun _ => by simp [reread], fun _ => by simp [reread]⟩

/-- Bundled files that give the entries in memory are read anew without their flags. -/
theorem loadBundled_unchanged {outside : Outside} {session : Session}
    (singles
      : readBundle outside.now session.paths.library false session.disk.singles
        = .ok (session.store.singles.map (·.unmarked outside.now)))
    (multis
      : readBundle outside.now session.paths.library true session.disk.multis
        = .ok (session.store.multis.map (·.unmarked outside.now)))
    : loadBundled outside session
      = (.ok (), session.withStore (session.store.reread outside.now)) := by
  simp only [loadBundled, singles, multis]
  rfl

-----------------------------------------------------------------------------------------
-- Flags
-----------------------------------------------------------------------------------------

theorem map_unmarked_markFirst (now : Timestamp) (id : Uuid) (flag : Bool) (entries : List Entry)
    : (markFirst id flag entries).map (·.unmarked now) = entries.map (·.unmarked now) :=
  map_markFirst (Entry.unmarked_withFavorite now) id flag entries

/-- Setting a flag in the store leaves what does not depend on it. -/
theorem Store.map_every_mark {α : Type} {part : Entry → α}
    (free : ∀ (entry : Entry) flag, part (entry.withFavorite flag) = part entry) (store : Store)
    (id : Uuid) (flag : Bool)
    : (store.mark id flag).every.map part = store.every.map part := by
  rw [every_mark, map_markFirst free]

theorem Entry.IsWritable.withFavorite {entry : Entry} (writable : entry.IsWritable) (flag : Bool)
    : (entry.withFavorite flag).IsWritable :=
  ⟨writable.id, writable.labels, writable.created, writable.modified⟩

theorem isWritable_markFirst {entries : List Entry} (writable : ∀ entry ∈ entries, entry.IsWritable)
    (id : Uuid) (flag : Bool)
    : ∀ entry ∈ markFirst id flag entries, entry.IsWritable := by
  induction entries with
  | nil => simp [markFirst]
  | cons first rest ih =>
      obtain ⟨here, others⟩ := List.forall_mem_cons.mp writable
      unfold markFirst
      split
      next => exact List.forall_mem_cons.mpr ⟨here.withFavorite flag, others⟩
      next => exact List.forall_mem_cons.mpr ⟨here, ih others⟩

/-- Setting a flag leaves the bundled entries the same, up to flags. -/
theorem Store.sameBundle_mark (store : Store) (id : Uuid) (flag : Bool)
    : (store.mark id flag).SameBundle store := by
  unfold mark
  split
  next => exact ⟨fun now => map_unmarked_markFirst now id flag _, fun _ => rfl⟩
  next =>
    split
    next => exact ⟨fun _ => rfl, fun now => map_unmarked_markFirst now id flag _⟩
    next => exact ⟨fun _ => rfl, fun _ => rfl⟩

theorem Store.map_id_user_mark (store : Store) (id : Uuid) (flag : Bool)
    : (store.mark id flag).user.map (·.id) = store.user.map (·.id) := by
  unfold mark
  split
  next => rfl
  next =>
    split
    next => rfl
    next => exact map_id_markFirst id flag _

theorem Store.isWritable_user_mark {store : Store}
    (writable : ∀ entry ∈ store.user, entry.IsWritable) (id : Uuid) (flag : Bool)
    : ∀ entry ∈ (store.mark id flag).user, entry.IsWritable := by
  unfold mark
  split
  next => exact writable
  next =>
    split
    next => exact writable
    next => exact isWritable_markFirst writable id flag

-----------------------------------------------------------------------------------------
-- Drawn identifiers
-----------------------------------------------------------------------------------------

/-- Identifiers that are drawn from a count on, up to another one: they have 128 bits, differ from
each other and are not taken yet.
-/
structure Fresh (ids : Nat → Uuid) (first last : Nat) (taken : List Uuid) : Prop where
  valid : ∀ k, first ≤ k → k < last → (ids k).IsValid
  distinct : ∀ j k, first ≤ j → j < k → k < last → ids j ≠ ids k
  unused : ∀ k, first ≤ k → k < last → ids k ∉ taken

section
variable {ids : Nat → Uuid} {first last : Nat} {taken : List Uuid}

theorem Fresh.later (fresh : Fresh ids first last taken) {next : Nat} (after : first ≤ next)
    : Fresh ids next last taken where
  valid k above := fresh.valid k (after.trans above)
  distinct j k above := fresh.distinct j k (after.trans above)
  unused k above := fresh.unused k (after.trans above)

theorem Fresh.subset (fresh : Fresh ids first last taken) {fewer : List Uuid}
    (subset : fewer ⊆ taken)
    : Fresh ids first last fewer :=
  { fresh with unused := fun k above below known => fresh.unused k above below (subset known) }

/-- An identifier that is drawn is taken, and the later ones are fresh all the same. -/
theorem Fresh.draw (fresh : Fresh ids first last taken)
    : Fresh ids (first + 1) last (taken ++ [ids first]) where
  valid k above := fresh.valid k (by omega)
  distinct j k above := fresh.distinct j k (by omega)
  unused k above below := by
    rw [List.mem_append, List.mem_singleton, not_or]
    exact ⟨fresh.unused k (by omega) below,
      Ne.symm (fresh.distinct first k (Nat.le_refl _) above below)⟩

theorem nodup_append_fresh (fresh : Fresh ids first last taken) (distinct : taken.Nodup)
    (below : first < last)
    : (taken ++ [ids first]).Nodup := by
  rw [List.nodup_append]
  refine ⟨distinct, List.nodup_singleton _, ?_⟩
  rintro id known other drawn rfl
  obtain rfl := List.mem_singleton.mp drawn
  exact fresh.unused first (Nat.le_refl _) below known

end

end Wavetable.Catalogue
