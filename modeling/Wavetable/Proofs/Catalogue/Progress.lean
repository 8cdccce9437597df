import Wavetable.Proofs.Catalogue.Edits

/-!
Catalogues over time. An event neither changes the paths of the files nor takes back an identifier
that was drawn.
-/

namespace Wavetable.Catalogue

/-- A later moment of a catalogue, with the same paths and no fewer drawn identifiers. -/
structure Session.Precedes (before after : Session) : Prop where
  paths : after.paths = before.paths
  drawn : before.drawn ≤ after.drawn

theorem Session.Precedes.refl (session : Session) : session.Precedes session :=
  ⟨rfl, Nat.le_refl _⟩

theorem Session.Precedes.trans {before between after : Session} (first : before.Precedes between)
    (second : between.Precedes after)
    : before.Precedes after :=
  ⟨second.paths.trans first.paths, Nat.le_trans first.drawn second.drawn⟩

theorem Session.precedes_save (session : Session) : session.Precedes (save session).2 := by
  unfold save
  split
  next => exact .refl session
  next => split <;> exact ⟨rfl, Nat.le_refl _⟩

theorem Change.precedes_commit (change : Change Unit)
    : change.session.Precedes change.commit.2 := by
  have saved := change.session.precedes_save
  rcases change.commit_cases with stands | undone
  · exact stands ▸ saved
  · exact undone ▸ ⟨saved.paths, saved.drawn⟩

variable {outside : Outside} {session : Session}

theorem Edit.Makes.precedes {edit : Edit} {change : Change Unit}
    (makes : edit.Makes outside session change)
    : session.Precedes change.session := by
  cases makes with
  | added => exact ⟨rfl, Nat.le_succ _⟩
  | replaced => exact ⟨rfl, Nat.le_refl _⟩
  | removed => exact ⟨rfl, Nat.le_refl _⟩
  | flagged => exact ⟨rfl, Nat.le_refl _⟩

theorem Edit.precedes (edit : Edit) : session.Precedes (edit.perform outside session).2 := by
  rw [edit.perform_eq]
  cases allowed : edit.change outside session with
  | error => exact .refl session
  | ok change => exact (Edit.makes_of_change allowed).precedes.trans change.precedes_commit

theorem precedes_loadBundled (outside : Outside) (session : Session)
    : session.Precedes (loadBundled outside session).2 := by
  unfold loadBundled
  split
  next => exact .refl session
  next =>
    dsimp only
    split <;> exact ⟨rfl, Nat.le_refl _⟩

theorem precedes_loadUserState (outside : Outside) (session : Session)
    : session.Precedes (loadUserState outside session).2 := by
  unfold loadUserState
  split
  next => exact .refl session
  next =>
    split
    next => exact .refl session
    next => exact .refl session
    next => exact .refl session
    next =>
      split
      next => exact .refl session
      next => exact ⟨rfl, Nat.le_add_right _ _⟩

/-- Opening starts from an empty catalogue. -/
theorem precedes_openSession (outside : Outside) (paths : Paths) (disk : Disk) (drawn : Nat)
    (autoload : Bool)
    : Session.Precedes ⟨paths, disk, .empty, drawn⟩
        (openSession outside paths disk drawn autoload).2 := by
  have bundled := precedes_loadBundled outside ⟨paths, disk, .empty, drawn⟩
  unfold openSession
  dsimp only
  split
  next =>
    split
    next outcome => exact outcome ▸ bundled
    next outcome =>
      rw [outcome] at bundled
      exact bundled.trans (precedes_loadUserState ..)
  next => exact .refl _

theorem Event.precedes (event : Event) : session.Precedes (event.perform outside session).2 := by
  cases event with
  | edit edit => exact edit.precedes
  | save => exact session.precedes_save
  | loadUser => exact precedes_loadUserState ..
  | loadBundled => exact precedes_loadBundled ..
  | fill => exact ⟨rfl, Nat.le_refl _⟩

/-- A catalogue precedes what a history makes of it, by induction on the events. -/
theorem Session.precedes_after (ids : Nat → Uuid) (session : Session) (history : History)
    : session.Precedes (session.after ids history) := by
  induction history generalizing session with
  | nil => exact .refl session
  | cons moment rest ih => exact moment.2.precedes.trans (ih _)

end Wavetable.Catalogue
