import Wavetable.Catalogue.Query
import Wavetable.Proofs.Catalogue.Reloading

/-!
Entries that are listed. Whatever files are loaded and whatever is edited, no text of an entry is
empty or has blanks at its ends, and a formula of the user is listed under the mode that it compiles
to and under no other.
-/

namespace Wavetable.Catalogue

-----------------------------------------------------------------------------------------
-- Labels of bundled formulas
-----------------------------------------------------------------------------------------

/-- Trimmed labels are accepted as they are. -/
theorem Labels.IsTrimmed.ofTexts_eq {labels : Labels} (trimmed : labels.IsTrimmed)
    : Labels.ofTexts labels.expression labels.name labels.category = .ok labels := by
  simp [Labels.ofTexts, blankLabels, trimmed.expression.visible, trimmed.name.visible,
    trimmed.category.visible, trimmed.expression.trimmed, trimmed.name.trimmed,
    trimmed.category.trimmed]

/-- The texts on a line of a bundled file are trimmed. The name of a category may be empty. -/
def BundleLine.IsTrimmed : BundleLine → Prop
  | .header category => category.isEmpty = false → Text.IsLabel category
  | .formula expression name => Text.IsLabel expression ∧ Text.IsLabel name
  | _ => True

/-- The name on the line of a category is what trimming leaves of a text. -/
theorem eq_trimChars_of_header? {line category : List Char} (header : header? line = some category)
    : ∃ cs, category = Text.trimChars cs := by
  unfold header? at header
  split at header
  next => exact ⟨_, (Option.some.inj header).symm⟩
  next => contradiction

theorem BundleLine.isTrimmed_ofText (text : String) : (ofText text).IsTrimmed := by
  unfold ofText
  dsimp only
  split
  next => trivial
  next =>
    split
    next category header =>
      obtain ⟨cs, rfl⟩ := eq_trimChars_of_header? header
      intro named
      refine Text.isLabel_ofList_trimChars fun nothing => ?_
      simp [nothing] at named
    next =>
      split
      next => trivial
      next =>
        split
        next => trivial
        next complete =>
          simp only [Bool.or_eq_true, List.isEmpty_iff, not_or] at complete
          exact ⟨Text.isLabel_ofList_trimChars complete.1,
            Text.isLabel_ofList_trimChars complete.2⟩

/-- The texts of a bundled formula. -/
def BundleKey.labels (key : BundleKey) : Labels :=
  ⟨key.expression, key.name, key.category⟩

/-- The formulas of trimmed lines are trimmed, by induction on lines with the category in force. -/
theorem isTrimmed_of_mem_keysOf {isMultiFrame : Bool} {category : String} {lines : List BundleLine}
    (inForce : Text.IsLabel category) (trimmed : ∀ line ∈ lines, line.IsTrimmed)
    : ∀ key ∈ keysOf isMultiFrame category lines, key.labels.IsTrimmed := by
  induction lines generalizing category with
  | nil => simp [keysOf]
  | cons line rest ih =>
      obtain ⟨here, others⟩ := List.forall_mem_cons.mp trimmed
      cases line with
      | header name =>
          rw [keysOf]
          split
          next => exact ih inForce others
          next named => exact ih (here (Bool.eq_false_iff.mpr named)) others
      | formula expression name =>
          rw [keysOf]
          exact List.forall_mem_cons.mpr ⟨⟨here.1, here.2, inForce⟩, ih inForce others⟩
      | blank => exact ih inForce others
      | incomplete => exact ih inForce others
      | other => exact ih inForce others

theorem isLabel_defaultCategory (isMultiFrame : Bool)
    : Text.IsLabel (defaultCategory isMultiFrame) := by
  cases isMultiFrame <;> exact ⟨by decide, by decide⟩

theorem isTrimmed_of_mem_bundleLines {text : String}
    : ∀ line ∈ bundleLines text, line.IsTrimmed := by
  intro line member
  obtain ⟨text, -, rfl⟩ := List.mem_map.mp member
  exact BundleLine.isTrimmed_ofText text

/-- The formulas of a bundled text. -/
def bundleKeys (isMultiFrame : Bool) (text : String) : List BundleKey :=
  keysOf isMultiFrame (defaultCategory isMultiFrame) (bundleLines text)

theorem isTrimmed_of_mem_bundleKeys {isMultiFrame : Bool} {text : String}
    : ∀ key ∈ bundleKeys isMultiFrame text, key.labels.IsTrimmed :=
  isTrimmed_of_mem_keysOf (isLabel_defaultCategory isMultiFrame) isTrimmed_of_mem_bundleLines

/-- Numbering formulas keeps them in their order. -/
theorem map_fst_ordinals (before keys : List BundleKey)
    : (ordinals before keys).map (·.1) = keys := by
  induction keys generalizing before with
  | nil => rfl
  | cons key rest ih => rw [ordinals, List.map_cons, ih]

/-- The texts of the entries of a bundled file are those of its formulas. -/
theorem map_labels_bundle (now : Timestamp) (isMultiFrame : Bool) (text : String)
    : (bundle now isMultiFrame text).map Entry.labels
      = (bundleKeys isMultiFrame text).map BundleKey.labels := by
  have kept := map_fst_ordinals [] (bundleKeys isMultiFrame text)
  rw [← congrArg (List.map BundleKey.labels) kept, bundle, List.map_map, List.map_map]
  rfl

theorem isTrimmed_of_readBundle {now : Timestamp} {library : String} {isMultiFrame : Bool}
    {file : Text.File} {entries : List Entry}
    (read : readBundle now library isMultiFrame file = .ok entries)
    : ∀ entry ∈ entries, entry.labels.IsTrimmed := by
  cases file with
  | missing =>
      obtain rfl := Except.ok.inj read
      simp
  | directory => contradiction
  | garbled => contradiction
  | text content =>
      obtain rfl := Except.ok.inj read
      rw [← List.forall_mem_map (f := Entry.labels), map_labels_bundle]
      exact List.forall_mem_map.mpr isTrimmed_of_mem_bundleKeys

-----------------------------------------------------------------------------------------
-- Properties of the entries over time
-----------------------------------------------------------------------------------------

/-- A property of the entries that edits and loads keep, whether they succeed or fail. -/
structure Store.Kept (property : Store → Prop) : Prop where
  edited
    : ∀ {outside : Outside} {session : Session} (edit : Edit),
        property session.store → property (edit.perform outside session).2.store
  loadedUser
    : ∀ {outside : Outside} {session : Session},
        property session.store → property (loadUserState outside session).2.store
  loadedBundled
    : ∀ {outside : Outside} {session : Session},
        property session.store → property (loadBundled outside session).2.store

section
variable {property : Store → Prop} (kept : Store.Kept property) {outside : Outside}
  {session : Session}
include kept

theorem Store.Kept.perform (holds : property session.store) (turn : Turn)
    : property (turn.perform outside session).store := by
  cases turn with
  | own event =>
      cases event with
      | edit edit => exact kept.edited edit holds
      | save => exact (save_store session).symm ▸ holds
      | loadUser => exact kept.loadedUser holds
      | loadBundled => exact kept.loadedBundled holds
      | fill => exact holds
  | putBundle => exact holds
  | putState => exact holds
  | block => exact holds

/-- By induction on the history. -/
theorem Store.Kept.afterTurns {ids : Nat → Uuid} (holds : property session.store)
    (history : Turns)
    : property (session.afterTurns ids history).store := by
  induction history generalizing session with
  | nil => exact holds
  | cons moment rest ih => exact ih (kept.perform holds moment.2)

/-- A catalogue is empty before its files are read. -/
theorem Store.Kept.opened (empty : property .empty) (paths : Paths) (disk : Disk) (drawn : Nat)
    (autoload : Bool)
    : property (openSession outside paths disk drawn autoload).2.store := by
  have bundled : property (loadBundled outside ⟨paths, disk, .empty, drawn⟩).2.store :=
    kept.loadedBundled empty
  unfold openSession
  dsimp only
  split
  next =>
    split
    next outcome =>
      rw [outcome] at bundled
      exact bundled
    next outcome =>
      rw [outcome] at bundled
      exact kept.loadedUser bundled
  next => exact empty

end

/-- Reading the bundled files anew keeps a property of bundled entries that all entries of such
files have, also if only the first file can be read.
-/
theorem forall_bundled_of_reads {property : Entry → Prop} {outside : Outside} {session : Session}
    (reads
      : ∀ {now library isMultiFrame file entries},
          readBundle now library isMultiFrame file = .ok entries
          → ∀ entry ∈ entries, property entry)
    (holds : ∀ entry ∈ session.store.bundled, property entry)
    : ∀ entry ∈ (loadBundled outside session).2.store.bundled, property entry := by
  unfold loadBundled
  split
  next => exact holds
  next single =>
    have multis := (List.forall_mem_append.mp holds).2
    dsimp only
    split
    next => exact List.forall_mem_append.mpr ⟨reads single, multis⟩
    next multi => exact List.forall_mem_append.mpr ⟨reads single, reads multi⟩

-----------------------------------------------------------------------------------------
-- Labels in the catalogue
-----------------------------------------------------------------------------------------

/-- The texts of every entry are trimmed. -/
def Store.IsLabelled (store : Store) : Prop :=
  ∀ entry ∈ store.every, entry.labels.IsTrimmed

theorem Store.isLabelled_iff {store : Store}
    : store.IsLabelled
      ↔ (∀ entry ∈ store.singles, entry.labels.IsTrimmed)
        ∧ (∀ entry ∈ store.multis, entry.labels.IsTrimmed)
        ∧ ∀ entry ∈ store.user, entry.labels.IsTrimmed := by
  simp only [IsLabelled, every, bundled, List.forall_mem_append, and_assoc]

section
variable {outside : Outside} {session : Session}

theorem Store.SameEntries.isLabelled {left right : Store} (same : left.SameEntries right)
    (labelled : right.IsLabelled)
    : left.IsLabelled := by
  rw [Store.isLabelled_iff] at labelled ⊢
  rw [same.singles, same.multis]
  exact ⟨labelled.1, labelled.2.1, fun entry member =>
    labelled.2.2 entry (same.user.mem_iff.mp member)⟩

/-- An edit that is made in memory gives an entry labels that are trimmed, or none at all. -/
theorem Edit.Makes.isLabelled {edit : Edit} {change : Change Unit}
    (makes : edit.Makes outside session change) (labelled : session.store.IsLabelled)
    : change.session.store.IsLabelled := by
  cases makes with
  | flagged =>
      rw [Store.IsLabelled, ← List.forall_mem_map (f := Entry.labels)] at labelled ⊢
      have kept : ∀ id flag, (session.store.mark id flag).every.map Entry.labels
          = session.store.every.map Entry.labels :=
        Store.map_every_mark (fun _ _ => rfl) session.store
      exact (kept _ _).symm ▸ labelled
  | added given =>
      rw [Store.isLabelled_iff] at labelled ⊢
      refine ⟨labelled.1, labelled.2.1, List.forall_mem_append.mpr ⟨labelled.2.2, ?_⟩⟩
      exact List.forall_mem_singleton.mpr (Labels.isTrimmed_of_ofTexts given)
  | replaced _ given =>
      rw [Store.isLabelled_iff] at labelled ⊢
      refine ⟨labelled.1, labelled.2.1, fun entry member => ?_⟩
      rcases List.mem_or_eq_of_mem_set member with old | rfl
      · exact labelled.2.2 entry old
      · exact Labels.isTrimmed_of_ofTexts given
  | removed =>
      rw [Store.isLabelled_iff] at labelled ⊢
      exact ⟨labelled.1, labelled.2.1, fun entry member =>
        labelled.2.2 entry (List.mem_of_mem_eraseIdx member)⟩

theorem Store.IsLabelled.edited (labelled : session.store.IsLabelled) (edit : Edit)
    : (edit.perform outside session).2.store.IsLabelled := by
  cases allowed : edit.change outside session with
  | error =>
      rw [edit.perform_eq, allowed]
      exact labelled
  | ok change =>
      rcases Edit.store_perform allowed with stands | same
      · exact stands ▸ (Edit.makes_of_change allowed).isLabelled labelled
      · exact same.isLabelled labelled

/-- The texts of completed entries are those of the stored ones. -/
theorem map_labels_completeAll (outside : Outside) (drawn : Nat) (entries : List StoredEntry)
    : (completeAll outside drawn entries).map Entry.labels = entries.map (·.labels) := by
  induction entries generalizing drawn with
  | nil => rfl
  | cons entry rest ih => rw [completeAll, List.map_cons, ih]; rfl

/-- A state has trimmed texts, and taking it over changes none of the bundled ones. -/
theorem Store.IsLabelled.taken (labelled : session.store.IsLabelled) {content : String}
    {state : State} (read : State.ofText content = .ok state)
    : (takeState outside session state).store.IsLabelled := by
  have stored : ∀ labels ∈ state.entries.map (·.labels), labels.IsTrimmed :=
    List.forall_mem_map.mpr fun entry member => (State.isWritable_of_ofText read entry member).labels
  rw [← map_labels_completeAll outside session.drawn] at stored
  rw [Store.isLabelled_iff] at labelled ⊢
  exact ⟨List.forall_mem_map.mpr labelled.1, List.forall_mem_map.mpr labelled.2.1,
    List.forall_mem_map.mpr (List.forall_mem_map.mp stored)⟩

theorem Store.IsLabelled.loadedUser (labelled : session.store.IsLabelled)
    : (loadUserState outside session).2.store.IsLabelled := by
  unfold loadUserState
  split
  next => exact labelled
  next =>
    split
    next => exact labelled
    next => exact labelled
    next => exact labelled
    next =>
      split
      next => exact labelled
      next read => exact labelled.taken read

theorem Store.IsLabelled.loadedBundled (labelled : session.store.IsLabelled)
    : (loadBundled outside session).2.store.IsLabelled := by
  obtain ⟨bundled, user⟩ := List.forall_mem_append.mp labelled
  refine List.forall_mem_append.mpr ⟨forall_bundled_of_reads isTrimmed_of_readBundle bundled, ?_⟩
  rwa [loadBundled_user]

theorem Store.kept_isLabelled : Store.Kept Store.IsLabelled where
  edited edit labelled := labelled.edited edit
  loadedUser labelled := labelled.loadedUser
  loadedBundled labelled := labelled.loadedBundled

theorem Store.IsLabelled.afterTurns {ids : Nat → Uuid} (labelled : session.store.IsLabelled)
    (history : Turns)
    : (session.afterTurns ids history).store.IsLabelled :=
  Store.kept_isLabelled.afterTurns labelled history

theorem Store.isLabelled_openSession (paths : Paths) (disk : Disk) (drawn : Nat) (autoload : Bool)
    : (openSession outside paths disk drawn autoload).2.store.IsLabelled :=
  Store.kept_isLabelled.opened (by simp [Store.isLabelled_iff, Store.empty]) paths disk drawn
    autoload

end

-----------------------------------------------------------------------------------------
-- Modes
-----------------------------------------------------------------------------------------

/-- The formulas of the user that are listed under a mode. -/
def Store.listed (store : Store) (isMultiFrame : Bool) : List Entry :=
  store.user.filter fun entry => entry.mode? = some (.ofFlag isMultiFrame)

theorem ofFlag_inj {left right : Bool} (same : Formula.Mode.ofFlag left = .ofFlag right)
    : left = right := by
  cases left <;> cases right <;> first | rfl | contradiction

/-- A formula that is of a mode is listed there as often as it is in the catalogue. -/
theorem Store.count_listed {store : Store} {entry : Entry} {isMultiFrame : Bool}
    (mode : entry.mode? = some (.ofFlag isMultiFrame))
    : (store.listed isMultiFrame).count entry = store.user.count entry :=
  List.count_filter (decide_eq_true mode)

theorem Store.not_mem_listed {store : Store} {entry : Entry} {isMultiFrame : Bool}
    (other : entry.mode? ≠ some (.ofFlag isMultiFrame))
    : entry ∉ store.listed isMultiFrame := fun member =>
  other (of_decide_eq_true (List.mem_filter.mp member).2)

theorem Store.all_sublist (store : Store) (isMultiFrame : Bool)
    : (store.all isMultiFrame).Sublist store.every := by
  refine List.Sublist.append ?_ List.filter_sublist
  cases isMultiFrame with
  | false => exact List.sublist_append_left ..
  | true => exact List.sublist_append_right ..

/-- Whatever happened to a catalogue and its files, no text of an entry is empty or has a blank at
one of its ends. A formula of the user that compiles is listed, as often as it is there, under the
mode of its formula and not under the other one. One that does not compile is listed under neither.
Lists are in the order of the catalogue, the bundled entries of the mode first.
-/
theorem entries_labelled_and_listed (outside : Outside) (paths : Paths) (disk : Disk) (drawn : Nat)
    (autoload : Bool) (ids : Nat → Uuid) (history : Turns)
    : let store := ((openSession outside paths disk drawn autoload).2.afterTurns ids history).store
      (∀ entry ∈ store.every, ∀ text ∈ [entry.expression, entry.name, entry.category],
          text ≠ ""
          ∧ (∀ c ∈ text.toList.head?, Text.isBlank c = false)
          ∧ ∀ c ∈ text.toList.getLast?, Text.isBlank c = false)
        ∧ (∀ isMultiFrame,
            store.all isMultiFrame = store.bundledOf isMultiFrame ++ store.listed isMultiFrame
            ∧ (store.all isMultiFrame).Sublist store.every)
        ∧ ∀ entry ∈ store.user,
            (∀ formula, Formula.compile entry.expression = .ok formula
              → ∃ isMultiFrame, formula.mode = .ofFlag isMultiFrame
                ∧ (store.listed isMultiFrame).count entry = store.user.count entry
                ∧ entry ∉ store.listed !isMultiFrame)
            ∧ (∀ error, Formula.compile entry.expression = .error error
              → ∀ isMultiFrame, entry ∉ store.listed isMultiFrame) := by
  intro store
  have labelled : store.IsLabelled :=
    (Store.isLabelled_openSession paths disk drawn autoload).afterTurns history
  refine ⟨fun entry member text among => ?_, fun isMultiFrame => ⟨rfl, store.all_sublist _⟩,
    fun entry own => ⟨fun formula compiles => ?_, fun error refused isMultiFrame => ?_⟩⟩
  · have trimmed := labelled entry member
    have label : Text.IsLabel text := by
      simp only [List.mem_cons, List.not_mem_nil, or_false] at among
      rcases among with rfl | rfl | rfl
      · exact trimmed.expression
      · exact trimmed.name
      · exact trimmed.category
    exact ⟨label.ne_empty, label.head, label.last⟩
  · have mode : entry.mode? = some (.ofFlag formula.usesFrame) := by
      rw [Entry.mode?, compiles]
      rfl
    refine ⟨formula.usesFrame, rfl, Store.count_listed mode, Store.not_mem_listed fun other => ?_⟩
    have same := ofFlag_inj (Option.some.inj (mode.symm.trans other))
    exact absurd same.symm (Bool.not_ne_self _)
  · refine Store.not_mem_listed fun mode => ?_
    rw [Entry.mode?, refused] at mode
    contradiction

/-- A formula that is listed for single frames is changed to one that does not compile, and then it
is listed no more.
-/
theorem entries_labelled_and_listed_broken
    : let entry := Labels.newEntry ⟨"x", "N", "Mine"⟩ ⟨0⟩ openingTime
      let broken := entry.relabel ⟨"x +", "N", "Mine"⟩ openingTime
      let addition : Timestamp × Turn :=
        (openingTime, .own (.edit (.add "x" "N" "Mine" false)))
      let change : Timestamp × Turn :=
        (openingTime, .own (.edit (.update ⟨0⟩ " x + " "N" "Mine")))
      let added := (openedOnRamp.afterTurns .mk [addition]).store
      let changed := (openedOnRamp.afterTurns .mk [addition, change]).store
      added.user = [entry]
        ∧ changed.user = [broken]
        ∧ (∃ isMultiFrame,
            (added.listed isMultiFrame).count entry = 1 ∧ entry ∉ added.listed !isMultiFrame)
        ∧ (∀ isMultiFrame, broken ∉ changed.listed isMultiFrame)
        ∧ ∀ c ∈ broken.expression.toList.getLast?, Text.isBlank c = false := by
  intro entry broken addition change added changed
  have allowed : openedOnRamp.afterTurns .mk [addition] = (commitIfAllowed openedOnRamp (.ok _)).2 :=
    congrArg Prod.snd ((Edit.perform_eq ⟨.mk, openingTime⟩ openedOnRamp _).trans
      (congrArg _ (addition_variable _ _)))
  have own : added.user = [entry] := by
    simp only [added, allowed]
    rfl
  have ownLater : changed.user = [broken] := by
    have later
        : changed = ((openedOnRamp.afterTurns .mk [addition]).afterTurns .mk [change]).store := rfl
    rw [later, allowed]
    rfl
  have compiles : Formula.compile "x" = .ok (.ofTree "x" (.var "x")) := rfl
  have refused : ∃ error, Formula.compile "x +" = .error error := ⟨_, rfl⟩
  have first := entries_labelled_and_listed ⟨.mk, openingTime⟩ ⟨"library", some "state.json"⟩
    ⟨.text "[w][Ramp]", .missing, .missing, false, false, 0⟩ 0 true .mk [addition]
  have second := entries_labelled_and_listed ⟨.mk, openingTime⟩ ⟨"library", some "state.json"⟩
    ⟨.text "[w][Ramp]", .missing, .missing, false, false, 0⟩ 0 true .mk [addition, change]
  have here : entry ∈ added.user := own ▸ List.mem_singleton.mpr rfl
  have there : broken ∈ changed.user := ownLater ▸ List.mem_singleton.mpr rfl
  obtain ⟨isMultiFrame, -, once, notOther⟩ := (first.2.2 entry here).1 _ compiles
  obtain ⟨error, refused⟩ := refused
  refine ⟨own, ownLater, ⟨isMultiFrame, once.trans ?_, notOther⟩,
    (second.2.2 broken there).2 error refused, ?_⟩
  · change added.user.count entry = 1
    rw [own, List.count_singleton_self]
  · exact (second.1 broken (List.mem_append_right _ there) broken.expression (by simp)).2.2

end Wavetable.Catalogue
