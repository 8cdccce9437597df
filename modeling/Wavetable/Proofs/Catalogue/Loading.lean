import Wavetable.Proofs.Catalogue.Reading

/-!
Loads that fail. A state that cannot be loaded leaves the catalogue as it is. Of the bundled files
the one for single frames is taken over before the other one is read, so that a failure of the
latter leaves the former's entries in place. All failures are reported as errors of the catalogue,
except for bytes that are no text.
-/

namespace Wavetable.Catalogue

/-- The event reads files of the catalogue. -/
def Event.isLoad : Event → Bool
  | .loadUser => true
  | .loadBundled => true
  | _ => false

section
variable {outside : Outside} {session left : Session} {error : Error}

theorem loadUserState_error (failed : loadUserState outside session = (.error error, left))
    : left = session := by
  unfold loadUserState at failed
  split at failed
  next => simp at failed
  next =>
    split at failed
    next => simp at failed
    next => exact (Prod.mk.inj failed).2.symm
    next => exact (Prod.mk.inj failed).2.symm
    next =>
      split at failed
      next => exact (Prod.mk.inj failed).2.symm
      next => simp at failed

/-- Reading the bundled files fails at the first of them, or at the second with the entries of the
first in place.
-/
theorem loadBundled_error (failed : loadBundled outside session = (.error error, left))
    : (readBundle outside.now session.paths.library false session.disk.singles = .error error
        ∧ left = session)
      ∨ (readBundle outside.now session.paths.library true session.disk.multis = .error error
        ∧ ∃ singles,
            readBundle outside.now session.paths.library false session.disk.singles = .ok singles
            ∧ left = session.withStore { session.store with singles := singles }) := by
  unfold loadBundled at failed
  split at failed
  next cause single =>
    obtain ⟨rfl, rfl⟩ : cause = error ∧ session = left := by simpa using failed
    exact .inl ⟨single, rfl⟩
  next singles single =>
    dsimp only at failed
    split at failed
    next cause multi =>
      obtain ⟨same, rfl⟩ := Prod.mk.inj failed
      obtain rfl := Except.error.inj same
      exact .inr ⟨multi, singles, single, rfl⟩
    next => simp at failed

/-- No entry is a favorite when it is read from a bundled file. -/
theorem isFavorite_of_readBundle {now : Timestamp} {library : String} {isMultiFrame : Bool}
    {file : Text.File} {entries : List Entry}
    (read : readBundle now library isMultiFrame file = .ok entries)
    : ∀ entry ∈ entries, entry.isFavorite = false := by
  have again := Except.ok.inj (read.symm.trans (readBundle_again read now))
  intro entry member
  rw [again] at member
  obtain ⟨_, -, rfl⟩ := List.mem_map.mp member
  rfl

end

/-- A catalogue whose second bundled file is a directory, of which nothing is read yet. -/
def unreadOnRamp : Session :=
  (openSession ⟨.mk, openingTime⟩ ⟨"library", some "state.json"⟩
    ⟨.text "[w][Ramp]", .directory, .missing, false, false, 0⟩ 0 false).2

/-- The error is one of the catalogue, and not one of what it is built on. -/
def Error.isOwn : Error → Bool
  | .undecodable => false
  | .directoryBlocked => false
  | _ => true

/-- The files that a load meets, up to the first one that stops it. -/
def Event.met (session : Session) : Event → List Text.File
  | .loadUser => if session.paths.state.isSome then [session.disk.visibleState] else []
  | .loadBundled =>
      match session.disk.singles with
      | .directory => [.directory]
      | .garbled bytes => [.garbled bytes]
      | singles => [singles, session.disk.multis]
  | _ => []

/-- The content of a file with which a load goes on. A missing file is as good as an empty one, and
the state has to be one that can be read.
-/
def Event.Accepts (event : Event) : Text.File → Prop
  | .missing => True
  | .directory => False
  | .garbled _ => False
  | .text content => event = .loadUser → ∃ state, State.ofText content = .ok state

/-- Bytes that are not UTF-8 are no text. -/
theorem ofBytes_eq_garbled {bytes : List UInt8}
    (undecodable : String.fromUTF8? ⟨bytes.toArray⟩ = none)
    : Text.File.ofBytes bytes = .garbled bytes := by
  rw [Text.File.ofBytes, undecodable]

section
variable {outside : Outside} {session : Session} {error : Error}

theorem readBundle_reports {now : Timestamp} {library : String} {isMultiFrame : Bool}
    {file : Text.File} (failed : readBundle now library isMultiFrame file = .error error)
    : error.isOwn = true ∨ error = .undecodable ∧ ∃ bytes, file = .garbled bytes := by
  cases file with
  | missing => contradiction
  | directory => exact .inl (by rw [← Except.error.inj failed]; rfl)
  | garbled bytes => exact .inr ⟨(Except.error.inj failed).symm, bytes, rfl⟩
  | text => contradiction

theorem loadUserState_reports {left : Session}
    (failed : loadUserState outside session = (.error error, left))
    : error.isOwn = true
      ∨ error = .undecodable ∧ ∃ bytes, .garbled bytes ∈ Event.met session .loadUser := by
  unfold loadUserState at failed
  split at failed
  next => simp at failed
  next path given =>
    have met : Event.met session .loadUser = [session.disk.visibleState] := by
      rw [Event.met, given]
      rfl
    rw [met]
    split at failed
    next => simp at failed
    next => exact .inl (by rw [← Except.error.inj (Prod.mk.inj failed).1]; rfl)
    next bytes file =>
      exact .inr ⟨(Except.error.inj (Prod.mk.inj failed).1).symm, bytes, by rw [file]; simp⟩
    next =>
      split at failed
      next => exact .inl (by rw [← Except.error.inj (Prod.mk.inj failed).1]; rfl)
      next => simp at failed

/-- The second bundled file is met where the first one can be read. -/
theorem met_loadBundled {now : Timestamp} {library : String} {singles : List Entry}
    (single : readBundle now library false session.disk.singles = .ok singles)
    : Event.met session .loadBundled = [session.disk.singles, session.disk.multis] := by
  rw [Event.met]
  split
  next directory => rw [directory] at single; contradiction
  next garbled => rw [garbled] at single; contradiction
  next => rfl

theorem loadBundled_reports {left : Session}
    (failed : loadBundled outside session = (.error error, left))
    : error.isOwn = true
      ∨ error = .undecodable ∧ ∃ bytes, .garbled bytes ∈ Event.met session .loadBundled := by
  rcases loadBundled_error failed with ⟨single, -⟩ | ⟨multi, singles, single, -⟩
  · refine (readBundle_reports single).imp_right fun ⟨other, bytes, garbled⟩ => ⟨other, bytes, ?_⟩
    rw [Event.met, garbled]
    exact List.mem_singleton_self _
  · refine (readBundle_reports multi).imp_right fun ⟨other, bytes, garbled⟩ => ⟨other, bytes, ?_⟩
    rw [met_loadBundled single, garbled]
    simp

/-- A load that meets bytes that are no text fails, and not with an error of the catalogue. -/
theorem perform_of_garbled_met {event : Event} {bytes : List UInt8}
    (met : .garbled bytes ∈ event.met session)
    : (event.perform outside session).1 = .error .undecodable := by
  cases event with
  | edit => contradiction
  | save => contradiction
  | fill => contradiction
  | loadUser =>
      rw [Event.met] at met
      split at met
      next given =>
        obtain ⟨path, given⟩ := Option.isSome_iff_exists.mp given
        simp [Event.perform, loadUserState, given, ← List.mem_singleton.mp met]
      next => contradiction
  | loadBundled =>
      rw [Event.met] at met
      rw [Event.perform, loadBundled]
      cases single : session.disk.singles with
      | missing =>
          have second : .garbled bytes = session.disk.multis := by simpa [single] using met
          simp [readBundle, ← second]
      | directory => simp [single] at met
      | garbled => rfl
      | text =>
          have second : .garbled bytes = session.disk.multis := by simpa [single] using met
          simp [readBundle, ← second]

theorem loadUserState_ok_iff
    : (loadUserState outside session).1 = .ok ()
      ↔ ∀ file ∈ Event.met session .loadUser, Event.Accepts .loadUser file := by
  cases given : session.paths.state with
  | none => simp [loadUserState, Event.met, given]
  | some path =>
      cases visible : session.disk.visibleState with
      | missing => simp [loadUserState, Event.met, Event.Accepts, given, visible]
      | directory => simp [loadUserState, Event.met, Event.Accepts, given, visible]
      | garbled => simp [loadUserState, Event.met, Event.Accepts, given, visible]
      | text content =>
          cases read : State.ofText content <;>
            simp [loadUserState, Event.met, Event.Accepts, given, visible, read]

theorem loadBundled_ok_iff
    : (loadBundled outside session).1 = .ok ()
      ↔ ∀ file ∈ Event.met session .loadBundled, Event.Accepts .loadBundled file := by
  -- The second file only matters where the first one can be read.
  cases single : session.disk.singles with
  | directory => simp [loadBundled, readBundle, Event.met, Event.Accepts, single]
  | garbled => simp [loadBundled, readBundle, Event.met, Event.Accepts, single]
  | missing =>
      cases multi : session.disk.multis <;>
        simp [loadBundled, readBundle, Event.met, Event.Accepts, single, multi]
  | text =>
      cases multi : session.disk.multis <;>
        simp [loadBundled, readBundle, Event.met, Event.Accepts, single, multi]

/-- A load succeeds exactly if every file that it meets is missing or a text, that of the state the
text of a state. Otherwise it fails with an error of the catalogue, or it has met bytes that are no
text. These are not reported as an error of the catalogue, wherever they are met. No text of a
bundled file stops its reader.
-/
theorem load_reports {event : Event} (loads : event.isLoad = true)
    : ((event.perform outside session).1 = .ok ()
        ↔ ∀ file ∈ event.met session, event.Accepts file)
      ∧ (∀ error, (event.perform outside session).1 = .error error →
          error.isOwn = true
          ∨ error = .undecodable ∧ ∃ bytes, .garbled bytes ∈ event.met session)
      ∧ (∀ bytes, .ofBytes bytes ∈ event.met session →
          String.fromUTF8? ⟨bytes.toArray⟩ = none →
          (event.perform outside session).1 = .error .undecodable)
      ∧ ∀ isMultiFrame text, ∃ entries, readText outside.now isMultiFrame text = .ok entries := by
  refine ⟨?_, fun error failed => ?_, fun bytes met undecodable => perform_of_garbled_met
    (ofBytes_eq_garbled undecodable ▸ met), fun _ => readText_succeeds⟩
  · cases event with
    | edit => contradiction
    | save => contradiction
    | fill => contradiction
    | loadUser => exact loadUserState_ok_iff
    | loadBundled => exact loadBundled_ok_iff
  · cases event with
    | edit => contradiction
    | save => contradiction
    | fill => contradiction
    | loadUser => exact loadUserState_reports (Prod.ext failed rfl)
    | loadBundled => exact loadBundled_reports (Prod.ext failed rfl)

end

/-- A catalogue with a byte in the place of its state that starts no character. -/
def unreadOnByte : Session :=
  (openSession ⟨.mk, openingTime⟩ ⟨"library", some "state.json"⟩
    ⟨.missing, .missing, .ofBytes [0xff], false, false, 0⟩ 0 false).2

theorem load_reports_byte
    : Event.loadUser.isLoad = true
        ∧ (Event.loadUser.perform ⟨.mk, openingTime⟩ unreadOnByte).1 = .error .undecodable :=
  ⟨rfl, (load_reports rfl).2.2.1 [0xff] (List.mem_singleton_self _) rfl⟩

/-- The byte is met, and the error is not one of the catalogue. -/
theorem byte_not_reported
    : (loadUserState ⟨.mk, openingTime⟩ unreadOnByte).1 = .error .undecodable
        ∧ Error.undecodable.isOwn = false :=
  ⟨rfl, rfl⟩

end Wavetable.Catalogue
