import Wavetable.Catalogue.Reading
import Wavetable.Proofs.Attempt
import Wavetable.Proofs.Catalogue.Listing
import Wavetable.Proofs.Catalogue.Numbering

/-!
Bundled texts read line by line. A reader never stops, and as long as digests do not collide its
table counts what the formulas before a line have in common with it. So the identifier of a formula
depends on its contents and on how many like it stand before it in the file, and on nothing else.
-/

namespace Wavetable.Catalogue

-----------------------------------------------------------------------------------------
-- Numbers
-----------------------------------------------------------------------------------------

/-- A formula has at least the number of those before all of them. -/
theorem le_of_mem_ordinals {before keys : List BundleKey} {key : BundleKey} {ordinal : Nat}
    (member : (key, ordinal) ∈ ordinals before keys)
    : before.count key ≤ ordinal := by
  induction keys generalizing before with
  | nil => contradiction
  | cons first rest ih =>
      rcases List.mem_cons.mp member with here | later
      · obtain ⟨rfl, rfl⟩ := Prod.mk.inj here
        exact Nat.le_refl _
      · exact (List.count_le_count_cons).trans (ih later)

/-- No formula is numbered alike twice, since later ones have greater numbers. -/
theorem nodup_ordinals (before keys : List BundleKey) : (ordinals before keys).Nodup := by
  induction keys generalizing before with
  | nil => exact List.nodup_nil
  | cons key rest ih =>
      refine List.nodup_cons.mpr ⟨fun again => ?_, ih _⟩
      have greater := le_of_mem_ordinals again
      rw [List.count_cons_self] at greater
      exact Nat.not_succ_le_self _ greater

/-- The formulas behind others are numbered on. -/
theorem ordinals_append (before left right : List BundleKey)
    : ordinals before (left ++ right)
      = ordinals before left ++ ordinals (left.reverse ++ before) right := by
  induction left generalizing before with
  | nil => rfl
  | cons key rest ih => simp [ordinals, ih]

/-- A formula has the number of equal ones before it. -/
theorem getElem?_ordinals (before keys : List BundleKey) (index : Nat)
    : (ordinals before keys)[index]?
      = keys[index]?.map fun key => (key, before.count key + (keys.take index).count key) := by
  induction keys generalizing before index with
  | nil => rfl
  | cons key rest ih =>
      cases index with
      | zero => simp [ordinals]
      | succ index =>
          simp only [ordinals, List.getElem?_cons_succ, ih, List.take_succ_cons]
          refine Option.map_congr fun other _ => ?_
          simp only [List.count_cons]
          congr 1
          omega

-----------------------------------------------------------------------------------------
-- Formulas of a file
-----------------------------------------------------------------------------------------

section
variable {isMultiFrame : Bool} {text category : String} {lines : List BundleLine}

/-- All formulas of a file are of its mode. -/
theorem isMultiFrame_of_mem_keysOf
    : ∀ key ∈ keysOf isMultiFrame category lines, key.isMultiFrame = isMultiFrame := by
  induction lines generalizing category with
  | nil => simp [keysOf]
  | cons line rest ih =>
      cases line with
      | formula => exact List.forall_mem_cons.mpr ⟨rfl, ih⟩
      | header => exact ih
      | blank => exact ih
      | incomplete => exact ih
      | other => exact ih

/-- Among formulas of one mode the texts tell which ones are equal. -/
theorem count_labels {keys : List BundleKey}
    (uniform : ∀ key ∈ keys, key.isMultiFrame = isMultiFrame) (labels : Labels)
    : (keys.map BundleKey.labels).count labels
      = keys.count ⟨isMultiFrame, labels.category, labels.expression, labels.name⟩ := by
  rw [List.count, List.countP_map]
  refine List.countP_congr fun key member => ?_
  obtain ⟨mode, category, expression, name⟩ := key
  obtain rfl : mode = isMultiFrame := uniform _ member
  obtain ⟨expression', name', category'⟩ := labels
  simp only [Function.comp_apply, beq_iff_eq, BundleKey.labels, Labels.mk.injEq,
    BundleKey.mk.injEq]
  tauto

/-- What is digested for the identifiers of a bundled text: each formula with number zero, and with
its own number.
-/
def digested (isMultiFrame : Bool) (text : String) : List (List UInt8) :=
  (ordinals [] (bundleKeys isMultiFrame text)).flatMap fun (key, ordinal) =>
    [key.encoded 0, key.encoded ordinal]

theorem encoded_mem_digested {key : BundleKey} {ordinal : Nat}
    (member : (key, ordinal) ∈ ordinals [] (bundleKeys isMultiFrame text))
    : key.encoded ordinal ∈ digested isMultiFrame text :=
  List.mem_flatMap.mpr ⟨_, member, List.mem_cons_of_mem _ List.mem_cons_self⟩

theorem encoded_zero_mem_digested {key : BundleKey} (member : key ∈ bundleKeys isMultiFrame text)
    : key.encoded 0 ∈ digested isMultiFrame text := by
  rw [← map_fst_ordinals [] (bundleKeys isMultiFrame text)] at member
  obtain ⟨numbered, known, rfl⟩ := List.mem_map.mp member
  exact List.mem_flatMap.mpr ⟨numbered, known, List.mem_cons_self⟩

end

-----------------------------------------------------------------------------------------
-- The reader
-----------------------------------------------------------------------------------------

section
variable {now : Timestamp} {isMultiFrame : Bool} {reading : Reading}

/-- A formula with trimmed texts does not stop the reader. -/
theorem Reading.formula_eq (now : Timestamp) (isMultiFrame : Bool) {expression name : String}
    (trimmed : Labels.IsTrimmed ⟨expression, name, reading.category⟩)
    : let key : BundleKey := ⟨isMultiFrame, reading.category, expression, name⟩
      let ordinal := reading.count (key.id 0)
      reading.formula now isMultiFrame expression name
      = .ok
          { reading with
            met := (key.id 0, ordinal + 1) :: reading.met
            entries := reading.entries ++ [key.entry now ordinal] } := by
  intro key ordinal
  have accepted : Labels.ofTexts expression name reading.category
      = .ok ⟨expression, name, reading.category⟩ := trimmed.ofTexts_eq
  have numbered : (if ordinal = 0 then key.id 0 else key.id ordinal) = key.id ordinal := by
    split
    next none => rw [none]; rfl
    next => rfl
  rw [formula, accepted, numbered]
  rfl

/-- The name of a category in force is trimmed whatever line of a category comes. -/
theorem BundleLine.IsTrimmed.inForce {category name : String} (inForce : Text.IsLabel category)
    (trimmed : (header name).IsTrimmed)
    : Text.IsLabel (if name.isEmpty then category else name) := by
  split
  next => exact inForce
  next given => exact trimmed (Bool.eq_false_iff.mpr given)

/-- Trimmed lines never stop a reader, whatever its table counts, and leave a trimmed category in
force, by induction on the lines.
-/
theorem Reading.lines_succeed (now : Timestamp) (isMultiFrame : Bool) {lines : List BundleLine}
    (inForce : Text.IsLabel reading.category) (trimmed : ∀ line ∈ lines, line.IsTrimmed)
    : ∃ next, reading.lines now isMultiFrame lines = .ok next ∧ Text.IsLabel next.category := by
  induction lines generalizing reading with
  | nil => exact ⟨reading, rfl, inForce⟩
  | cons line rest ih =>
      obtain ⟨here, others⟩ := List.forall_mem_cons.mp trimmed
      cases line with
      | header name =>
          let moved : Reading :=
            { reading with category := if name.isEmpty then reading.category else name }
          have named : Text.IsLabel moved.category := here.inForce inForce
          exact ih named others
      | formula expression name =>
          rw [lines, line, formula_eq now isMultiFrame ⟨here.1, here.2, inForce⟩]
          exact ih inForce others
      | blank => exact ih inForce others
      | incomplete => exact ih inForce others
      | other => exact ih inForce others

theorem Reading.start_succeeds (now : Timestamp) (isMultiFrame : Bool) (lines : List BundleLine)
    (trimmed : ∀ line ∈ lines, line.IsTrimmed)
    : ∃ next, (start isMultiFrame).lines now isMultiFrame lines = .ok next
        ∧ Text.IsLabel next.category :=
  lines_succeed now isMultiFrame (isLabel_defaultCategory isMultiFrame) trimmed

/-- Every text is read to its end. -/
theorem readText_succeeds (text : String)
    : ∃ entries, readText now isMultiFrame text = .ok entries := by
  obtain ⟨reading, read, -⟩ := Reading.start_succeeds now isMultiFrame (bundleLines text)
    isTrimmed_of_mem_bundleLines
  exact ⟨reading.entries, by rw [readText, read]; rfl⟩

theorem Reading.lines_append (before after : List BundleLine)
    : reading.lines now isMultiFrame (before ++ after)
      = (reading.lines now isMultiFrame before).bind (·.lines now isMultiFrame after) := by
  induction before generalizing reading with
  | nil => rfl
  | cons line rest ih =>
      rw [List.cons_append, lines, lines]
      cases reading.line now isMultiFrame line with
      | error => rfl
      | ok next => exact ih

end

-----------------------------------------------------------------------------------------
-- The table of the reader
-----------------------------------------------------------------------------------------

/-- The identifiers with number zero tell formulas. -/
def FirstsApart (known : List BundleKey) : Prop :=
  ∀ key ∈ known, ∀ other ∈ known, key.id 0 = other.id 0 → key = other

/-- As long as digests do not collide, identifiers with number zero tell the formulas of a file. -/
theorem NoCollision.firstsApart {isMultiFrame : Bool} {text : String}
    (apart : NoCollision (digested isMultiFrame text))
    : FirstsApart (bundleKeys isMultiFrame text) := fun _ known _ other same =>
  (BundleKey.id_inj apart (encoded_zero_mem_digested known) (encoded_zero_mem_digested other)
    same).1

/-- The table of a reader has the counts of those formulas that it met before. -/
def Reading.Counts (reading : Reading) (known before : List BundleKey) : Prop :=
  ∀ key ∈ known, reading.count (key.id 0) = before.count key

/-- A reader has met formulas: their entries are behind those before, and its table counts them. -/
structure Reading.Meets (now : Timestamp) (known before keys : List BundleKey)
    (reading next : Reading) : Prop where
  entries
    : next.entries
      = reading.entries ++ (ordinals before keys).map fun (key, ordinal) => key.entry now ordinal
  counts : next.Counts known (keys.reverse ++ before)

section
variable {now : Timestamp} {known before : List BundleKey} {isMultiFrame : Bool}
  {reading next : Reading}

/-- A count that is put in front of the table is the one of its formula, and the others stay. -/
theorem Reading.Counts.meet (counts : reading.Counts known before) (apart : FirstsApart known)
    {key : BundleKey} (member : key ∈ known) (entries : List Entry)
    : Reading.Counts
        ⟨reading.category, (key.id 0, reading.count (key.id 0) + 1) :: reading.met, entries⟩
        known (key :: before) := by
  intro other among
  rw [List.count_cons]
  by_cases same : other.id 0 = key.id 0
  · obtain rfl := apart other among key member same
    simp [count, ← counts other among]
  · have different : key ≠ other := fun equal => same (congrArg (BundleKey.id · 0) equal.symm)
    simp [count, List.lookup_cons, beq_false_of_ne same, different, ← counts other among]

theorem Reading.Meets.trans {between : Reading} {first second : List BundleKey}
    (left : reading.Meets now known before first between)
    (right : between.Meets now known (first.reverse ++ before) second next)
    : reading.Meets now known before (first ++ second) next where
  entries := by
    rw [right.entries, left.entries, ordinals_append, List.map_append, List.append_assoc]
  counts := by
    rw [List.reverse_append, List.append_assoc]
    exact right.counts

/-- A formula with trimmed texts is met with its number. -/
theorem Reading.formula_meets (counts : reading.Counts known before) (apart : FirstsApart known)
    {expression name : String}
    (member : ⟨isMultiFrame, reading.category, expression, name⟩ ∈ known)
    (trimmed : Labels.IsTrimmed ⟨expression, name, reading.category⟩)
    (read : reading.formula now isMultiFrame expression name = .ok next)
    : reading.Meets now known before [⟨isMultiFrame, reading.category, expression, name⟩]
        next := by
  obtain rfl := Except.ok.inj ((formula_eq now isMultiFrame trimmed).symm.trans read)
  refine ⟨?_, counts.meet apart member _⟩
  simp [ordinals, counts _ member]

/-- A reader meets the formulas of lines in their order, each in the category in force, by induction
on the lines.
-/
theorem Reading.Counts.lines_meet {lines : List BundleLine} (counts : reading.Counts known before)
    (apart : FirstsApart known) (inForce : Text.IsLabel reading.category)
    (trimmed : ∀ line ∈ lines, line.IsTrimmed)
    (among : keysOf isMultiFrame reading.category lines ⊆ known)
    (read : reading.lines now isMultiFrame lines = .ok next)
    : reading.Meets now known before (keysOf isMultiFrame reading.category lines) next := by
  induction lines generalizing reading before with
  | nil =>
      obtain rfl := Except.ok.inj read
      exact ⟨by simp [keysOf, ordinals], counts⟩
  | cons line rest ih =>
      obtain ⟨here, others⟩ := List.forall_mem_cons.mp trimmed
      cases line with
      | header name =>
          let moved : Reading :=
            { reading with category := if name.isEmpty then reading.category else name }
          have named : Text.IsLabel moved.category := here.inForce inForce
          have same : moved.Counts known before := counts
          obtain ⟨entries, after⟩ := ih same named others among read
          exact ⟨entries, after⟩
      | formula expression name =>
          obtain ⟨member, included⟩ := List.cons_subset.mp among
          have labelled : Labels.IsTrimmed ⟨expression, name, reading.category⟩ :=
            ⟨here.1, here.2, inForce⟩
          have met := formula_eq now isMultiFrame labelled
          rw [Reading.lines, Reading.line, met] at read
          have first := formula_meets counts apart member labelled met
          exact first.trans (ih first.counts inForce others included read)
      | blank => exact ih counts inForce others among read
      | incomplete => exact ih counts inForce others among read
      | other => exact ih counts inForce others among read

end

/-- As long as digests do not collide, reading line by line gives the numbered entries. -/
theorem readText_eq_bundle {now : Timestamp} {isMultiFrame : Bool} {text : String}
    (apart : NoCollision (digested isMultiFrame text))
    : readText now isMultiFrame text = .ok (bundle now isMultiFrame text) := by
  obtain ⟨next, read, -⟩ := Reading.start_succeeds now isMultiFrame (bundleLines text)
    isTrimmed_of_mem_bundleLines
  have none : (Reading.start isMultiFrame).Counts (bundleKeys isMultiFrame text) [] :=
    fun _ _ => rfl
  have met := none.lines_meet apart.firstsApart (isLabel_defaultCategory isMultiFrame)
    isTrimmed_of_mem_bundleLines (List.Subset.refl _) read
  rw [readText, read]
  exact congrArg Except.ok met.entries

-----------------------------------------------------------------------------------------
-- Identifiers of a file
-----------------------------------------------------------------------------------------

section
variable {now : Timestamp} {isMultiFrame : Bool} {text : String}

/-- The identifier of an entry is made from its texts and from how many entries before it have the
same ones.
-/
theorem id_of_bundle {index : Nat} {entry : Entry}
    (found : (bundle now isMultiFrame text)[index]? = some entry)
    : entry.id
      = BundleKey.id ⟨isMultiFrame, entry.category, entry.expression, entry.name⟩
          ((((bundle now isMultiFrame text).take index).map Entry.labels).count entry.labels) := by
  let keys := bundleKeys isMultiFrame text
  have earlier : ((bundle now isMultiFrame text).take index).map Entry.labels
      = (keys.take index).map BundleKey.labels := by
    rw [List.map_take, map_labels_bundle, List.map_take]
  change ((ordinals [] keys).map fun (key, ordinal) => key.entry now ordinal)[index]? = some entry
    at found
  rw [List.getElem?_map, getElem?_ordinals, Option.map_map] at found
  obtain ⟨key, known, rfl⟩ := Option.map_eq_some_iff.mp found
  have mode : key.isMultiFrame = isMultiFrame :=
    isMultiFrame_of_mem_keysOf key (List.mem_of_getElem? known)
  have uniform : ∀ other ∈ keys.take index, other.isMultiFrame = isMultiFrame := fun other among =>
    isMultiFrame_of_mem_keysOf other (List.mem_of_mem_take among)
  rw [earlier, count_labels uniform, ← mode]
  simp [BundleKey.entry, Entry.labels]

/-- As long as digests do not collide, the entries of both files have different identifiers: those
of one file differ by contents or number, and those of the other file have another mode.
-/
theorem nodup_ids_bundles {texts : Bool → String}
    (apart : NoCollision (digested false (texts false) ++ digested true (texts true)))
    : ((bundle now false (texts false) ++ bundle now true (texts true)).map (·.id)).Nodup := by
  let numbered (isMultiFrame : Bool) := ordinals [] (bundleKeys isMultiFrame (texts isMultiFrame))
  have mode : ∀ isMultiFrame, ∀ pair ∈ numbered isMultiFrame, pair.1.isMultiFrame = isMultiFrame :=
    fun isMultiFrame pair member => isMultiFrame_of_mem_keysOf pair.1 <| by
      have among := List.mem_map_of_mem (f := (·.1)) member
      rwa [map_fst_ordinals] at among
  have distinct : (numbered false ++ numbered true).Nodup := by
    refine (nodup_ordinals _ _).append (nodup_ordinals _ _) fun pair single multi => ?_
    have same := (mode false pair single).symm.trans (mode true pair multi)
    contradiction
  have encoded : ∀ pair ∈ numbered false ++ numbered true,
      pair.1.encoded pair.2 ∈ digested false (texts false) ++ digested true (texts true) := by
    intro pair member
    exact List.mem_append.mpr <| (List.mem_append.mp member).imp
      encoded_mem_digested encoded_mem_digested
  have ids : (bundle now false (texts false) ++ bundle now true (texts true)).map (·.id)
      = (numbered false ++ numbered true).map fun (key, ordinal) => key.id ordinal := by
    rw [List.map_append, List.map_append, bundle, bundle, List.map_map, List.map_map]
    rfl
  rw [ids]
  refine distinct.map_on fun pair member other among same => ?_
  obtain ⟨key, ordinal⟩ := BundleKey.id_inj apart (encoded pair member) (encoded other among) same
  exact Prod.ext key (Int.ofNat.inj ordinal)

end

-----------------------------------------------------------------------------------------
-- Identifiers and lines
-----------------------------------------------------------------------------------------

section
variable {now : Timestamp} {isMultiFrame : Bool} {reading next : Reading}

/-- A line puts at most its own entry behind those of a reader. -/
theorem Reading.line_extends {line : BundleLine}
    (read : reading.line now isMultiFrame line = .ok next)
    : reading.entries <+: next.entries := by
  cases line with
  | formula expression name =>
      rw [Reading.line, formula] at read
      obtain ⟨labels, -, made⟩ := bind_eq_ok.mp read
      obtain rfl := Except.ok.inj made
      exact List.prefix_append _ _
  | header => obtain rfl := Except.ok.inj read; exact List.prefix_rfl
  | blank => obtain rfl := Except.ok.inj read; exact List.prefix_rfl
  | incomplete => obtain rfl := Except.ok.inj read; exact List.prefix_rfl
  | other => obtain rfl := Except.ok.inj read; exact List.prefix_rfl

theorem Reading.lines_extend {lines : List BundleLine}
    (read : reading.lines now isMultiFrame lines = .ok next)
    : reading.entries <+: next.entries := by
  induction lines generalizing reading with
  | nil => obtain rfl := Except.ok.inj read; exact List.prefix_rfl
  | cons line rest ih =>
      rw [Reading.lines] at read
      obtain ⟨between, first, others⟩ := bind_eq_ok.mp read
      exact (line_extends first).trans (ih others)

/-- Where the line of a formula stands, the reader adds an entry with its texts and the category in
force, and all later entries come behind it.
-/
theorem readText_at_line {text : String} {entries : List Entry}
    (read : readText now isMultiFrame text = .ok entries) {before after : List String}
    {line expression name : String} (split : Text.lines text = before ++ line :: after)
    (shape : BundleLine.ofText line = .formula expression name)
    : ∃ reading entry later,
        (Reading.start isMultiFrame).lines now isMultiFrame (before.map .ofText) = .ok reading
        ∧ entries = reading.entries ++ entry :: later
        ∧ entry.labels = ⟨expression, name, reading.category⟩ := by
  obtain ⟨last, reads, made⟩ := bind_eq_ok.mp read
  obtain rfl := pure_eq_ok.mp made
  have trimmed : ∀ line ∈ before.map BundleLine.ofText, line.IsTrimmed :=
    List.forall_mem_map.mpr fun text _ => BundleLine.isTrimmed_ofText text
  obtain ⟨reading, reached, inForce⟩ := Reading.start_succeeds now isMultiFrame _ trimmed
  have here : (BundleLine.formula expression name).IsTrimmed :=
    shape ▸ BundleLine.isTrimmed_ofText line
  rw [bundleLines, split, List.map_append, List.map_cons, shape, Reading.lines_append, reached]
    at reads
  change Reading.lines now isMultiFrame reading (_ :: _) = _ at reads
  rw [Reading.lines, Reading.line,
    Reading.formula_eq now isMultiFrame ⟨here.1, here.2, inForce⟩] at reads
  obtain ⟨later, entries⟩ := Reading.lines_extend reads
  exact ⟨reading, _, later, reached, entries.symm.trans (List.append_assoc _ _ _), rfl⟩

end

/-- Every text is read to its end, and the entries of two files have different identifiers. Each
identifier is made from mode, category, expression, name and the number of entries before it in the
file with the same ones; the category is the one in force where the line of the entry stands. So in
whatever other text an entry with these stands, it has the same identifier.
-/
theorem bundled_identifiers (now : Timestamp) (texts : Bool → String)
    (apart : NoCollision (digested false (texts false) ++ digested true (texts true)))
    : ∃ entries : Bool → List Entry,
        (∀ isMultiFrame,
          readText now isMultiFrame (texts isMultiFrame) = .ok (entries isMultiFrame)
          ∧ entries isMultiFrame = bundle now isMultiFrame (texts isMultiFrame))
        ∧ ((entries false ++ entries true).map (·.id)).Nodup
        ∧ (∀ isMultiFrame index entry, (entries isMultiFrame)[index]? = some entry →
          entry.id
            = BundleKey.id ⟨isMultiFrame, entry.category, entry.expression, entry.name⟩
                ((((entries isMultiFrame).take index).map Entry.labels).count entry.labels))
        ∧ (∀ isMultiFrame before line after expression name,
          Text.lines (texts isMultiFrame) = before ++ line :: after →
          BundleLine.ofText line = .formula expression name →
          ∃ reading entry later,
            (Reading.start isMultiFrame).lines now isMultiFrame (before.map .ofText) = .ok reading
            ∧ entries isMultiFrame = reading.entries ++ entry :: later
            ∧ entry.labels = ⟨expression, name, reading.category⟩)
        ∧ (∀ isMultiFrame later text others, NoCollision (digested isMultiFrame text) →
          readText later isMultiFrame text = .ok others →
          ∀ index position entry other,
            (entries isMultiFrame)[index]? = some entry → others[position]? = some other →
            entry.labels = other.labels →
            (((entries isMultiFrame).take index).map Entry.labels).count entry.labels
              = ((others.take position).map Entry.labels).count other.labels →
            entry.id = other.id) := by
  have alone : ∀ isMultiFrame, NoCollision (digested isMultiFrame (texts isMultiFrame)) := by
    intro isMultiFrame
    refine apart.subset ?_
    cases isMultiFrame
    · exact List.subset_append_left _ _
    · exact List.subset_append_right _ _
  have read : ∀ isMultiFrame, readText now isMultiFrame (texts isMultiFrame)
      = .ok (bundle now isMultiFrame (texts isMultiFrame)) := fun isMultiFrame =>
    readText_eq_bundle (alone isMultiFrame)
  refine ⟨fun isMultiFrame => bundle now isMultiFrame (texts isMultiFrame),
    fun isMultiFrame => ⟨read isMultiFrame, rfl⟩, nodup_ids_bundles apart,
    fun isMultiFrame index entry found => id_of_bundle found, ?_, ?_⟩
  · intro isMultiFrame before line after expression name split shape
    exact readText_at_line (read isMultiFrame) split shape
  · intro isMultiFrame later text others apart again index position entry other found there
      labels number
    obtain rfl := Except.ok.inj ((readText_eq_bundle apart).symm.trans again)
    obtain ⟨expression, name, category⟩ := Labels.mk.inj labels
    rw [id_of_bundle found, id_of_bundle there, number]
    rw [expression, name, category]

/-- The formula named Ramp in the category that files start with. -/
def ramp (isMultiFrame : Bool) : BundleKey :=
  ⟨isMultiFrame, defaultCategory isMultiFrame, "w", "Ramp"⟩

/-- The first bytes of the digests for that formula are different in the two files. -/
theorem head_digest_ramp (isMultiFrame : Bool)
    : (Digest.Blake2b.digest 16 ((ramp isMultiFrame).encoded 0)).head?
      = some (if isMultiFrame then 15 else 51) := by
  rw [BundleKey.encoded_eq, BundleKey.toList_canonical]
  cases isMultiFrame <;> decide +kernel

/-- The first byte is a different one again where the formula stands a second time. -/
theorem head_digest_second_ramp
    : (Digest.Blake2b.digest 16 ((ramp false).encoded 1)).head? = some 67 := by
  rw [BundleKey.encoded_eq, BundleKey.toList_canonical]
  decide +kernel

/-- The digests for the formula in the two files and for its second line do not collide. -/
theorem noCollision_ramps
    : NoCollision [(ramp false).encoded 0, (ramp false).encoded 1, (ramp true).encoded 0] := by
  have single := head_digest_ramp false
  have multi := head_digest_ramp true
  have second := head_digest_second_ramp
  intro left known right other same
  have heads := congrArg List.head? same
  simp only [List.mem_cons, List.not_mem_nil, or_false] at known other
  obtain rfl | rfl | rfl := known <;> obtain rfl | rfl | rfl := other <;>
    first | rfl | simp [single, multi, second] at heads

theorem bundled_identifiers_ramps
    : let twice := "[w][Ramp]\n[w][Ramp]"
      let apart := "[x][Single-Frame]\n[w][Ramp]\n\n[w][Ramp]"
      NoCollision (digested false twice ++ digested true "[w][Ramp]")
        ∧ ((bundle openingTime false twice ++ bundle openingTime true "[w][Ramp]").map (·.id)).Nodup
        ∧ ∃ entry other, (bundle openingTime false twice)[1]? = some entry
          ∧ (bundle openingTime false apart)[1]? = some other ∧ entry.id = other.id := by
  intro twice apart
  have singles : bundleKeys false twice = [ramp false, ramp false] := by decide +kernel
  have multis : bundleKeys true "[w][Ramp]" = [ramp true] := by decide +kernel
  have others : bundleKeys false apart = [ramp false, ramp false] := by decide +kernel
  have distinct : NoCollision (digested false twice ++ digested true "[w][Ramp]") :=
    noCollision_ramps.subset (by simp [digested, singles, multis, ordinals])
  have again : NoCollision (digested false apart) :=
    noCollision_ramps.subset (by simp [digested, others, ordinals])
  have two : ∀ text, bundleKeys false text = [ramp false, ramp false] →
      bundle openingTime false text
        = [(ramp false).entry openingTime 0, (ramp false).entry openingTime 1] := by
    intro text keys
    change (ordinals [] (bundleKeys false text)).map _ = _
    rw [keys]
    simp [ordinals]
  obtain ⟨entries, read, nodup, -, -, same⟩ :=
    bundled_identifiers openingTime (fun multi => if multi then "[w][Ramp]" else twice) distinct
  rw [(read false).2, (read true).2] at nodup
  have found : (bundle openingTime false twice)[1]? = some ((ramp false).entry openingTime 1) := by
    rw [two twice singles]
    rfl
  have there : (bundle openingTime false apart)[1]? = some ((ramp false).entry openingTime 1) := by
    rw [two apart others]
    rfl
  refine ⟨distinct, nodup, _, _, found, there, ?_⟩
  refine same false openingTime apart _ again (readText_eq_bundle again) 1 1 _ _
    ((congrArg (·[1]?) (read false).2).trans found) there rfl ?_
  rw [(read false).2]
  change ((List.take 1 (bundle openingTime false twice)).map _).count _ = _
  rw [two twice singles, two apart others]

end Wavetable.Catalogue
