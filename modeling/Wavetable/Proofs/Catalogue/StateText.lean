import Wavetable.Catalogue.State
import Wavetable.Proofs.Catalogue.Identifiers
import Wavetable.Proofs.Catalogue.Timestamps
import Wavetable.Proofs.Json.RoundTrip
import Wavetable.Proofs.Text.Blank

/-!
States read back. Entries that can be written are read from the text of a state with all of their
fields, and so are the favorites. Every entry that is read from any text can be written again.
-/

namespace Wavetable.Catalogue

-----------------------------------------------------------------------------------------
-- Entries that can be written
-----------------------------------------------------------------------------------------

/-- The texts of an entry are neither blank nor surrounded by blanks. -/
structure Labels.IsTrimmed (labels : Labels) : Prop where
  expression : Text.IsLabel labels.expression
  name : Text.IsLabel labels.name
  category : Text.IsLabel labels.category

/-- Labels made of texts are trimmed. -/
theorem Labels.isTrimmed_of_ofTexts {expression name category : String} {labels : Labels}
    (given : Labels.ofTexts expression name category = .ok labels)
    : labels.IsTrimmed := by
  unfold ofTexts at given
  split at given
  next visible =>
    obtain rfl := Except.ok.inj given
    simp only [blankLabels, List.append_eq_nil_iff, ite_eq_right_iff, List.cons_ne_nil,
      imp_false, Bool.not_eq_true] at visible
    exact ⟨Text.isLabel_trim visible.1.2, Text.isLabel_trim visible.2,
      Text.isLabel_trim visible.1.1⟩
  next => contradiction

/-- Labels made of texts are what trimming leaves of these. -/
theorem Labels.eq_of_ofTexts {expression name category : String} {labels : Labels}
    (given : Labels.ofTexts expression name category = .ok labels)
    : labels = ⟨Text.trim expression, Text.trim name, Text.trim category⟩ := by
  unfold ofTexts at given
  split at given
  next => exact (Except.ok.inj given).symm
  next => contradiction

/-- The three texts of an entry. -/
def Entry.labels (entry : Entry) : Labels :=
  ⟨entry.expression, entry.name, entry.category⟩

/-- An entry whose text is read back. -/
structure Entry.IsWritable (entry : Entry) : Prop where
  id : entry.id.IsValid
  labels : entry.labels.IsTrimmed
  created : entry.created.IsWritable
  modified : entry.modified.IsWritable

/-- An entry of a state, of which what is given can be written. -/
structure StoredEntry.IsWritable (entry : StoredEntry) : Prop where
  id : ∀ id ∈ entry.id, id.IsValid
  labels : entry.labels.IsTrimmed
  created : ∀ t ∈ entry.created, t.IsWritable
  modified : ∀ t ∈ entry.modified, t.IsWritable

-----------------------------------------------------------------------------------------
-- Checked values
-----------------------------------------------------------------------------------------

section
variable {α β : Type}

@[simp]
theorem Checked.apply_ok (f : α → β) (x : α)
    : Checked.apply (.ok f) (.ok x) = .ok (f x) := rfl

@[simp]
theorem Checked.within_ok (part : String) (x : α)
    : Checked.within part (.ok x) = .ok x := rfl

/-- A function and its argument succeed together. -/
theorem Checked.apply_eq_ok {f : Checked (α → β)} {x : Checked α} {result : β}
    : Checked.apply f x = .ok result ↔ ∃ g y, f = .ok g ∧ x = .ok y ∧ g y = result := by
  cases f <;> cases x <;> simp [apply]

theorem Checked.within_eq_ok {part : String} {x : Checked α} {result : α}
    : Checked.within part x = .ok result ↔ x = .ok result := by
  cases x <;> simp [within]

variable {members : Json.Members} {name : String} {read : Json → Checked α}

/-- A member that is missing is none, and any other one was read. -/
theorem optionalMember_eq_ok {result : Option α}
    (given : optionalMember members name read = .ok result)
    : ∀ x ∈ result, ∃ value, read value = .ok x := by
  unfold optionalMember at given
  split at given
  next =>
    obtain rfl := Except.ok.inj given
    simp
  next value _ =>
    rw [Checked.within_eq_ok] at given
    intro x same
    cases found : read value with
    | error => simp [found, Except.map] at given
    | ok y =>
        obtain rfl : some y = result := by simpa [found, Except.map] using given
        obtain rfl := Option.some.inj same
        exact ⟨value, found⟩

theorem requiredMember_eq_ok {result : α} (given : requiredMember members name read = .ok result)
    : ∃ value, read value = .ok result := by
  unfold requiredMember at given
  split at given
  next => contradiction
  next value _ => exact ⟨value, Checked.within_eq_ok.mp given⟩

/-- Items that are read were read one by one, in their order. -/
theorem readItems_eq_ok {read : Json → Checked α} {index : Nat} {items : List Json}
    {results : List α} (given : readItems read index items = .ok results)
    : ∀ result ∈ results, ∃ item, read item = .ok result := by
  induction items generalizing index results with
  | nil =>
      obtain rfl := Except.ok.inj given
      simp
  | cons item rest ih =>
      obtain ⟨put, others, first, later, rfl⟩ := Checked.apply_eq_ok.mp given
      cases found : read item with
      | error => simp [found, Checked.within, Except.map] at first
      | ok result =>
          obtain rfl : List.cons result = put := by simpa [found, Except.map] using first
          exact List.forall_mem_cons.mpr ⟨⟨item, found⟩, ih later⟩

/-- Items that can be read one by one are read together. -/
theorem readItems_map {read : Json → Checked α} {write : β → Json} {stored : β → α}
    {items : List β} (each : ∀ item ∈ items, read (write item) = .ok (stored item)) (index : Nat)
    : readItems read index (items.map write) = .ok (items.map stored) := by
  induction items generalizing index with
  | nil => rfl
  | cons item rest ih =>
      have later := ih (fun x member => each x (List.mem_cons_of_mem _ member)) (index + 1)
      simp [readItems, each item List.mem_cons_self, later, Except.map]

end

-----------------------------------------------------------------------------------------
-- What is read from any text
-----------------------------------------------------------------------------------------

theorem isValid_of_readUuid {value : Json} {id : Uuid} (read : readUuid value = .ok id)
    : id.IsValid := by
  unfold readUuid at read
  split at read
  next =>
    split at read
    next found =>
      obtain rfl := Except.ok.inj read
      exact Uuid.isValid_of_ofText? found
    next => contradiction
  next => contradiction

theorem isLabel_of_readLabel {value : Json} {label : String} (read : readLabel value = .ok label)
    : Text.IsLabel label := by
  unfold readLabel at read
  split at read
  next =>
    split at read
    next => contradiction
    next visible =>
      obtain rfl := Except.ok.inj read
      exact Text.isLabel_trim (Bool.eq_false_iff.mpr visible)
  next => contradiction

theorem isWritable_of_readTimestamp {value : Json} {t : Timestamp}
    (read : readTimestamp value = .ok t)
    : t.IsWritable := by
  unfold readTimestamp at read
  dsimp only at read
  split at read
  next found =>
    obtain rfl := Except.ok.inj read
    split at found
    next => exact Timestamp.isWritable_of_ofText? found
    next => exact Timestamp.isWritable_of_ofEpoch? found
    next => exact Timestamp.isWritable_of_ofEpochFloat? found
    next => contradiction
  next => contradiction

/-- An entry that is read can be written as far as it is given. -/
theorem isWritable_of_readEntry {value : Json} {entry : StoredEntry}
    (read : readEntry value = .ok entry)
    : entry.IsWritable := by
  unfold readEntry at read
  split at read
  next members =>
    dsimp only at read
    obtain ⟨_, _, read8, -, rfl⟩ := Checked.apply_eq_ok.mp read
    obtain ⟨_, modified, read7, readModified, rfl⟩ := Checked.apply_eq_ok.mp read8
    obtain ⟨_, created, read6, readCreated, rfl⟩ := Checked.apply_eq_ok.mp read7
    obtain ⟨_, userCreated, read5, -, rfl⟩ := Checked.apply_eq_ok.mp read6
    obtain ⟨_, favorite, read4, -, rfl⟩ := Checked.apply_eq_ok.mp read5
    obtain ⟨_, category, read3, readCategory, rfl⟩ := Checked.apply_eq_ok.mp read4
    obtain ⟨_, name, read2, readName, rfl⟩ := Checked.apply_eq_ok.mp read3
    obtain ⟨_, expression, read1, readExpression, rfl⟩ := Checked.apply_eq_ok.mp read2
    obtain ⟨_, id, read0, readId, rfl⟩ := Checked.apply_eq_ok.mp read1
    obtain rfl := Except.ok.inj read0
    constructor
    · intro id' same
      obtain ⟨value, found⟩ := optionalMember_eq_ok readId id' same
      exact isValid_of_readUuid found
    · obtain ⟨_, foundExpression⟩ := requiredMember_eq_ok readExpression
      obtain ⟨_, foundName⟩ := requiredMember_eq_ok readName
      obtain ⟨_, foundCategory⟩ := requiredMember_eq_ok readCategory
      exact ⟨isLabel_of_readLabel foundExpression, isLabel_of_readLabel foundName,
        isLabel_of_readLabel foundCategory⟩
    · intro t same
      obtain ⟨value, found⟩ := optionalMember_eq_ok readCreated t same
      exact isWritable_of_readTimestamp found
    · intro t same
      obtain ⟨value, found⟩ := optionalMember_eq_ok readModified t same
      exact isWritable_of_readTimestamp found
  next => contradiction

/-- The entries of every state that is read can be written. -/
theorem State.isWritable_of_ofText {text : String} {state : State}
    (read : State.ofText text = .ok state)
    : ∀ entry ∈ state.entries, entry.IsWritable := by
  unfold State.ofText State.ofJson at read
  split at read
  next => contradiction
  next =>
    split at read
    next =>
      dsimp only at read
      obtain ⟨_, _, read3, -, rfl⟩ := Checked.apply_eq_ok.mp read
      obtain ⟨_, favorites, read2, -, rfl⟩ := Checked.apply_eq_ok.mp read3
      obtain ⟨_, entries, read1, readEntries, rfl⟩ := Checked.apply_eq_ok.mp read2
      obtain ⟨_, _, read0, -, rfl⟩ := Checked.apply_eq_ok.mp read1
      obtain rfl := Except.ok.inj read0
      cases entries with
      | none => simp
      | some entries =>
          obtain ⟨value, found⟩ := optionalMember_eq_ok readEntries entries rfl
          unfold readList at found
          split at found
          next =>
            intro entry member
            obtain ⟨item, one⟩ := readItems_eq_ok found entry member
            exact isWritable_of_readEntry one
          next => contradiction
    next => contradiction

-----------------------------------------------------------------------------------------
-- What is read from a written text
-----------------------------------------------------------------------------------------

/-- An entry as it stands in a state that was written. -/
def Entry.stored (entry : Entry) : StoredEntry where
  id := some entry.id
  labels := entry.labels
  isFavorite := entry.isFavorite
  isUserCreated := entry.isUserCreated
  created := some entry.created
  modified := some entry.modified

theorem readUuid_toText {id : Uuid} (valid : id.IsValid)
    : readUuid (.text id.toText) = .ok id := by
  simp [readUuid, Uuid.ofText?_toText valid]

theorem readLabel_text {s : String} (label : Text.IsLabel s) : readLabel (.text s) = .ok s := by
  simp [readLabel, label.visible, label.trimmed]

theorem readTimestamp_toText {t : Timestamp} (writable : t.IsWritable)
    : readTimestamp (.text t.toText) = .ok t := by
  simp [readTimestamp, Timestamp.ofText?_toText writable]

/-- An entry is read with all its fields. -/
theorem readEntry_toJson {entry : Entry} (writable : entry.IsWritable)
    : readEntry entry.toJson = .ok entry.stored := by
  obtain ⟨id, labels, created, modified⟩ := writable
  have expression : readLabel (.text entry.expression) = .ok entry.expression :=
    readLabel_text labels.expression
  have name : readLabel (.text entry.name) = .ok entry.name := readLabel_text labels.name
  have category : readLabel (.text entry.category) = .ok entry.category :=
    readLabel_text labels.category
  simp [readEntry, Entry.toJson, optionalMember, requiredMember, knownMembers, entryNames,
    Json.Members.get?, readUuid_toText id, expression, name, category, readTruth,
    readTimestamp_toText created, readTimestamp_toText modified, Except.map, Entry.stored,
    Entry.labels]

/-- The value of an entry is one object deep and is read back from its text. -/
theorem readable_toJson (entry : Entry) {room inner : Option Nat}
    (enters : Json.enter false room = .ok inner)
    : Json.Readable stateDialect room entry.toJson := by
  refine .object enters (by simp) (by simp) ?_
  simp only [List.forall_mem_cons, List.not_mem_nil, false_implies, implies_true, and_true]
  exact ⟨.text _, .text _, .text _, .text _, .bool _, .bool _, .text _, .text _⟩

/-- A list is read back from its text if its items are. -/
theorem readable_list {items : List Json} {room inner : Option Nat}
    (enters : Json.enter true room = .ok inner)
    (each : ∀ item ∈ items, Json.Readable stateDialect inner item)
    : Json.Readable stateDialect room (.list items) := by
  cases items with
  | nil => exact .emptyList
  | cons item rest => exact .list enters (by simp) each

/-- A state that was written is read with its entries and favorites. -/
theorem State.ofText_stateText {entries : List Entry} {favorites : List Uuid}
    (writable : ∀ entry ∈ entries, entry.IsWritable) (valid : ∀ id ∈ favorites, id.IsValid)
    : State.ofText (stateText entries favorites) = .ok ⟨entries.map Entry.stored, favorites⟩ := by
  have version : Json.Readable stateDialect (some 199) (.integer 1) := .integer (by decide)
  have formulas : Json.Readable stateDialect (some 199) (.list (entries.map Entry.toJson)) := by
    refine readable_list rfl fun item member => ?_
    obtain ⟨entry, -, rfl⟩ := List.mem_map.mp member
    exact readable_toJson entry rfl
  have marks : Json.Readable stateDialect (some 199)
      (.list (favorites.map fun id => .text id.toText)) := by
    have enters : Json.enter true (some 199) = .ok (some 198) := rfl
    refine readable_list enters fun item member => ?_
    obtain ⟨id, -, rfl⟩ := List.mem_map.mp member
    exact .text _
  have readable : Json.Readable stateDialect (some 200) (.object
      [("version", .integer 1), ("user_formulas", .list (entries.map Entry.toJson)),
        ("favorites", .list (favorites.map fun id => .text id.toText))]) := by
    have enters : Json.enter false (some 200) = .ok (some 199) := rfl
    refine .object enters (by simp) (by simp) ?_
    simp only [List.forall_mem_cons, List.not_mem_nil, false_implies, implies_true, and_true]
    exact ⟨version, formulas, marks⟩
  have read : Json.read? stateDialect (stateText entries favorites) = some _ :=
    congrArg Except.toOption (Json.read_indented readable)
  have each := readItems_map (fun entry member => readEntry_toJson (writable entry member)) 0
  have favored := readItems_map (fun id member => readUuid_toText (valid id member)) 0
  rw [State.ofText, read]
  simp only [List.map_id'] at favored
  simp [State.ofJson, optionalMember, knownMembers, stateNames, Json.Members.get?, readVersion,
    Version.isWhole, readList, each, favored, Except.map]

end Wavetable.Catalogue
