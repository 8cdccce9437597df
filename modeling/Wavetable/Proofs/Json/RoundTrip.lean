import Wavetable.Proofs.Json.Strings
import Wavetable.Proofs.Number.Digits

/-!
Indented texts read back. A value without doubles, whose objects give no name twice, comes back
from its indented text, if its whole numbers are short and its lists and objects not too deep for
the reader.
-/

namespace Wavetable.Json

open Wavetable.Number

variable {dialect : Dialect}

-----------------------------------------------------------------------------------------
-- Blanks
-----------------------------------------------------------------------------------------

theorem skipSpace_cons {c : Char} (cs : List Char) (token : isSpace c = false)
    : skipSpace (c :: cs) = c :: cs := by
  simp [skipSpace, token]

theorem skipSpace_lineBreak (depth : Nat) (cs : List Char)
    : skipSpace (lineBreak depth ++ cs) = skipSpace cs := by
  have blank : ∀ c ∈ lineBreak depth, isSpace c = true := by
    intro c member
    rcases List.mem_cons.mp member with rfl | member
    · decide
    · rw [List.eq_of_mem_replicate member]
      decide
  rw [skipSpace, List.dropWhile_append_of_pos blank, skipSpace]

-----------------------------------------------------------------------------------------
-- Whole numbers
-----------------------------------------------------------------------------------------

/-- What may stand behind a value in an indented text. -/
inductive IsBehind : List Char → Prop
  | nothing : IsBehind []
  | comma (rest : List Char) : IsBehind (',' :: rest)
  | lineBreak (rest : List Char) : IsBehind ('\n' :: rest)

theorem IsBehind.lineBreak_append (depth : Nat) (rest : List Char)
    : IsBehind (Json.lineBreak depth ++ rest) :=
  .lineBreak _

theorem IsBehind.endsDigits {rest : List Char} (behind : IsBehind rest) : EndsDigits rest := by
  cases behind with
  | nothing => exact .nil
  | comma => exact .cons (by decide)
  | lineBreak => exact .cons (by decide)

theorem readWhole_digitChars {rest : List Char} (n : Nat) (behind : IsBehind rest)
    : readWhole (digitChars n ++ rest) = some (digitChars n, rest) := by
  have all : ∀ c ∈ digitChars n, c.isDigit = true := fun c => isDigit_of_mem_digitChars
  have spanned := spanDigits_append all behind.endsDigits
  cases n with
  | zero => rfl
  | succ n =>
      obtain ⟨first, digits, written, -, other⟩ := digitChars_eq_cons (n + 1)
      rw [written] at spanned ⊢
      unfold readWhole
      split
      next zero =>
        rw [List.cons_append] at zero
        exact absurd (List.cons.inj zero).1 (other (Nat.succ_pos n))
      next => rw [spanned]

/-- The digits of a whole number are read as its size. -/
theorem readSize_digitChars {rest : List Char} (negative : Bool) (n : Nat)
    (short : dialect.allows negative true (digitChars n) = true) (behind : IsBehind rest)
    : readSize dialect negative (digitChars n ++ rest)
      = some (.integer (if negative then -n else n), rest) := by
  have fraction : readFraction rest = some (none, rest) := by cases behind <;> rfl
  have power : readExponent rest = some (none, rest) := by cases behind <;> rfl
  simp [readSize, readWhole_digitChars n behind, fraction, power, short, digitsValue_digitChars]

/-- What begins with a digit is a number. -/
theorem readScalar_digit {c : Char} (cs : List Char) (digit : c.isDigit = true)
    : readScalar dialect (c :: cs) = readSize dialect false (c :: cs) := by
  unfold readScalar
  split <;>
    first
    | rfl
    | next same =>
        obtain rfl := (List.cons.inj same).1
        exact absurd digit (by decide)

/-- A minus that a digit follows is the sign of a number. -/
theorem readScalar_minus {c : Char} (cs : List Char) (digit : c.isDigit = true)
    : readScalar dialect ('-' :: c :: cs) = readSize dialect true (c :: cs) := by
  have other : c ≠ 'I' := by
    rintro rfl
    contradiction
  simp [readScalar, other]

theorem readScalar_integerChars {rest : List Char} (n : Int)
    (short : dialect.allows (n < 0) true (digitChars n.natAbs) = true) (behind : IsBehind rest)
    : readScalar dialect (integerChars n ++ rest) = some (.integer n, rest) := by
  obtain ⟨first, digits, written, digit, -⟩ := digitChars_eq_cons n.natAbs
  have sized := readSize_digitChars (n < 0) n.natAbs short behind
  by_cases negative : n < 0
  · have value : -(n.natAbs : Int) = n := by omega
    simp only [negative, decide_true, if_true, value] at sized
    rw [integerChars, signChars, decide_eq_true negative, if_pos rfl, written] at *
    exact (readScalar_minus _ digit).trans sized
  · have value : (n.natAbs : Int) = n := by omega
    simp only [negative, decide_false, Bool.false_eq_true, if_false, value] at sized
    rw [integerChars, signChars, decide_eq_false negative, if_neg Bool.false_ne_true,
      written] at *
    exact (readScalar_digit _ digit).trans sized

-----------------------------------------------------------------------------------------
-- Values
-----------------------------------------------------------------------------------------

/-- A value that a reader of a dialect takes back from its text, with room for so many lists and
objects in each other.
-/
inductive Readable (dialect : Dialect) : Option Nat → Json → Prop
  | null {room} : Readable dialect room .null
  | bool {room} (value : Bool) : Readable dialect room (.bool value)
  | integer {room} {n : Int}
    (short : dialect.allows (n < 0) true (digitChars n.natAbs) = true)
    : Readable dialect room (.integer n)
  | text {room} (s : String) : Readable dialect room (.text s)
  | emptyList {room} : Readable dialect room (.list [])
  | list {room inner} {items : List Json} (enters : enter true room = .ok inner)
    (someItems : items ≠ []) (each : ∀ item ∈ items, Readable dialect inner item)
    : Readable dialect room (.list items)
  | emptyObject {room} : Readable dialect room (.object [])
  | object {room inner} {members : List (String × Json)} (enters : enter false room = .ok inner)
    (someMembers : members ≠ []) (distinct : (members.map (·.1)).Nodup)
    (each : ∀ member ∈ members, Readable dialect inner member.2)
    : Readable dialect room (.object members)

/-- A text that begins as a value does: with neither a blank nor a closing bracket. -/
def BeginsValue (cs : List Char) : Prop :=
  ∃ first rest, cs = first :: rest ∧ isSpace first = false ∧ first ≠ ']'

theorem BeginsValue.append {cs : List Char} (begins : BeginsValue cs) (rest : List Char)
    : BeginsValue (cs ++ rest) := by
  obtain ⟨first, more, rfl, token, other⟩ := begins
  exact ⟨first, more ++ rest, rfl, token, other⟩

theorem BeginsValue.skipSpace {cs : List Char} (begins : BeginsValue cs)
    : Json.skipSpace cs = cs := by
  obtain ⟨first, rest, rfl, token, -⟩ := begins
  exact skipSpace_cons rest token

/-- A whole number begins with a minus or a digit. -/
theorem integerChars_eq_cons (n : Int)
    : ∃ first rest, integerChars n = first :: rest ∧ (first = '-' ∨ first.isDigit = true) := by
  obtain ⟨first, digits, written, digit, -⟩ := digitChars_eq_cons n.natAbs
  unfold integerChars signChars
  split
  next => exact ⟨'-', _, rfl, .inl rfl⟩
  next => exact ⟨first, digits, by simp [written], .inr digit⟩

theorem beginsValue_integerChars (n : Int) : BeginsValue (integerChars n) := by
  obtain ⟨first, rest, written, minus | digit⟩ := integerChars_eq_cons n
  · exact ⟨first, rest, written, by rw [minus]; decide, by rw [minus]; decide⟩
  · refine ⟨first, rest, written, ?_, ?_⟩
    · have other : first ≠ ' ' ∧ first ≠ '\t' ∧ first ≠ '\n' ∧ first ≠ '\r' := by
        refine ⟨?_, ?_, ?_, ?_⟩ <;> (rintro rfl; contradiction)
      simp [isSpace, other]
    · rintro rfl
      contradiction

/-- Pieces between brackets stand on lines of their own. -/
theorem bracketed_of_ne_nil {pieces : List (List Char)} (somePieces : pieces ≠ [])
    (opening closing : Char) (depth : Nat)
    : bracketed opening closing depth pieces
      = opening :: (lineBreak (depth + 1) ++ separated (',' :: lineBreak (depth + 1)) pieces
        ++ lineBreak depth ++ [closing]) := by
  rw [bracketed, if_neg (by simpa using somePieces)]

theorem beginsValue_bracketed {opening closing : Char} (depth : Nat)
    (pieces : List (List Char)) (token : isSpace opening = false) (other : opening ≠ ']')
    : BeginsValue (bracketed opening closing depth pieces) := by
  unfold bracketed
  split
  next => exact ⟨opening, _, rfl, token, other⟩
  next => exact ⟨opening, _, rfl, token, other⟩

theorem Readable.beginsValue {room : Option Nat} {value : Json}
    (readable : Readable dialect room value) (depth : Nat)
    : BeginsValue (indentedChars depth value) := by
  cases readable with
  | null => exact ⟨'n', _, rfl, by decide, by decide⟩
  | bool value => cases value <;> exact ⟨_, _, rfl, by decide, by decide⟩
  | integer => exact beginsValue_integerChars _
  | text => exact ⟨'"', _, rfl, by decide, by decide⟩
  | emptyList => exact beginsValue_bracketed _ _ (by decide) (by decide)
  | list => exact beginsValue_bracketed _ _ (by decide) (by decide)
  | emptyObject => exact beginsValue_bracketed _ _ (by decide) (by decide)
  | object => exact beginsValue_bracketed _ _ (by decide) (by decide)

/-- Whatever stands behind it, the value is read back from its text. Fuel for two steps a character
is enough.
-/
def ReadsBack (dialect : Dialect) (room : Option Nat) (value : Json) : Prop :=
  ∀ depth rest fuel, IsBehind rest → 2 * (indentedChars depth value).length ≤ fuel →
    readValue dialect room fuel (indentedChars depth value ++ rest) = .ok (value, rest)

/-- The first of several pieces, and the others behind a separator. -/
theorem separated_cons {separator piece : List Char} {pieces : List (List Char)}
    (more : pieces ≠ [])
    : separated separator (piece :: pieces) = piece ++ separator ++ separated separator pieces := by
  cases pieces with
  | nil => contradiction
  | cons => rfl

theorem indentedItems_ne_nil {items : List Json} (someItems : items ≠ []) (depth : Nat)
    : indentedItems depth items ≠ [] := by
  cases items with
  | nil => contradiction
  | cons => simp [indentedItems]

theorem indentedMembers_ne_nil {members : List (String × Json)} (someMembers : members ≠ [])
    (depth : Nat)
    : indentedMembers depth members ≠ [] := by
  cases members with
  | nil => contradiction
  | cons => simp [indentedMembers]

/-- Items begin as the first of them does. -/
theorem beginsValue_items {items : List Json} (someItems : items ≠ []) {depth : Nat}
    (begins : ∀ item ∈ items, BeginsValue (indentedChars depth item)) (separator : List Char)
    : BeginsValue (separated separator (indentedItems depth items)) := by
  cases items with
  | nil => contradiction
  | cons item more =>
      have first := begins item List.mem_cons_self
      rw [indentedItems]
      by_cases last : indentedItems depth more = []
      · rw [last]
        exact first
      · rw [separated_cons last, List.append_assoc]
        exact first.append _

/-- Members begin with the mark of the first name. -/
theorem separated_members_eq_cons {members : List (String × Json)} (someMembers : members ≠ [])
    (depth : Nat) (separator : List Char)
    : ∃ behind, separated separator (indentedMembers depth members) = '"' :: behind := by
  cases members with
  | nil => contradiction
  | cons member more =>
      obtain ⟨name, value⟩ := member
      rw [indentedMembers]
      by_cases last : indentedMembers depth more = []
      · rw [last]
        exact ⟨_, rfl⟩
      · rw [separated_cons last]
        exact ⟨_, rfl⟩

/-- Items on lines of their own are read up to the closing bracket, by induction on the items. -/
theorem readItems_indented {room : Option Nat} {items : List Json} (someItems : items ≠ [])
    {depth outer fuel : Nat} {cs rest : List Char}
    (begins : ∀ item ∈ items, BeginsValue (indentedChars depth item))
    (each : ∀ item ∈ items, ReadsBack dialect room item)
    (text : skipSpace cs
      = separated (',' :: lineBreak depth) (indentedItems depth items)
        ++ (lineBreak outer ++ ']' :: rest))
    (enough : 2 * (separated (',' :: lineBreak depth) (indentedItems depth items)).length < fuel)
    : readItems dialect room fuel cs = .ok (items, rest) := by
  induction items generalizing fuel cs with
  | nil => contradiction
  | cons item more ih =>
      obtain ⟨fuel, rfl⟩ : ∃ n, fuel = n + 1 := ⟨fuel - 1, by omega⟩
      have first := each item List.mem_cons_self
      rw [readItems, text, indentedItems]
      by_cases last : more = []
      · subst last
        simp only [indentedItems, separated] at enough ⊢
        rw [first depth _ fuel (.lineBreak_append outer _) (by omega)]
        simp only [bind, Except.bind, skipSpace_lineBreak,
          skipSpace_cons (c := ']') rest (by decide)]
        rfl
      · have pieces := indentedItems_ne_nil last depth
        have begins : ∀ item ∈ more, BeginsValue (indentedChars depth item) :=
          fun x member => begins x (List.mem_cons_of_mem _ member)
        rw [indentedItems, separated_cons pieces] at enough
        simp only [List.length_append, List.length_cons] at enough
        rw [separated_cons pieces, List.append_assoc, List.append_assoc, List.cons_append,
          first depth _ fuel (.comma _) (by omega)]
        simp only [bind, Except.bind, skipSpace_cons (c := ',') _ (by decide)]
        rw [ih last begins (fun x member => each x (List.mem_cons_of_mem _ member)) _ (by omega)]
        · rfl
        · rw [skipSpace_lineBreak]
          exact ((beginsValue_items last begins _).append _).skipSpace

/-- A new name is put behind the others. -/
theorem Members.put_fresh {members : Members} {name : String} (fresh : name ∉ members.map (·.1))
    (value : Json)
    : members.put name value = members ++ [(name, value)] := by
  induction members with
  | nil => rfl
  | cons member rest ih =>
      obtain ⟨key, old⟩ := member
      simp only [List.map_cons, List.mem_cons, not_or] at fresh
      simp [Members.put, Ne.symm fresh.1, ih fresh.2]

/-- The first member is read, and what stands behind it decides whether there are more. -/
theorem readMembers_first {room : Option Nat} {before : List (String × Json)} {name : String}
    {value : Json} {depth fuel : Nat} {cs after : List Char}
    (text : skipSpace cs
      = stringChars name ++ ':' :: ' ' :: (indentedChars depth value ++ after))
    (begins : BeginsValue (indentedChars depth value)) (reads : ReadsBack dialect room value)
    (behind : IsBehind after) (enough : 2 * (indentedChars depth value).length ≤ fuel)
    : readMembers dialect room (fuel + 1) before cs
      = match skipSpace after with
        | ',' :: rest => readMembers dialect room fuel (Members.put before name value) rest
        | '\x7d' :: rest => .ok (Members.put before name value, rest)
        | _ => .error .malformed := by
  have blank : skipSpace (' ' :: (indentedChars depth value ++ after))
      = indentedChars depth value ++ after := by
    simpa [skipSpace, isSpace] using (begins.append after).skipSpace
  rw [readMembers, text]
  simp only [stringChars, List.cons_append, List.append_assoc, List.nil_append,
    readString_escaped, orMalformed, bind, Except.bind,
    skipSpace_cons (c := ':') _ (by decide), blank, reads depth after fuel behind enough]
  rfl

/-- Members on lines of their own are read up to the closing bracket and put behind those before,
by induction on the members.
-/
theorem readMembers_indented {room : Option Nat} {members : List (String × Json)}
    (someMembers : members ≠ []) (outer : Nat) {before : List (String × Json)} {depth fuel : Nat}
    {cs rest : List Char}
    (distinct : ((before ++ members).map (·.1)).Nodup)
    (begins : ∀ member ∈ members, BeginsValue (indentedChars depth member.2))
    (each : ∀ member ∈ members, ReadsBack dialect room member.2)
    (text : skipSpace cs
      = separated (',' :: lineBreak depth) (indentedMembers depth members)
        ++ (lineBreak outer ++ '\x7d' :: rest))
    (enough
      : 2 * (separated (',' :: lineBreak depth) (indentedMembers depth members)).length < fuel)
    : readMembers dialect room fuel before cs = .ok (before ++ members, rest) := by
  induction members generalizing fuel cs before with
  | nil => contradiction
  | cons member more ih =>
      obtain ⟨name, value⟩ := member
      obtain ⟨fuel, rfl⟩ : ∃ n, fuel = n + 1 := ⟨fuel - 1, by omega⟩
      have reads : ReadsBack dialect room value := each _ List.mem_cons_self
      have begun : BeginsValue (indentedChars depth value) := begins _ List.mem_cons_self
      have fresh : name ∉ before.map (·.1) := by
        rw [List.map_append, List.nodup_append] at distinct
        exact fun known => distinct.2.2 _ known _ List.mem_cons_self rfl
      by_cases last : more = []
      · subst last
        simp only [indentedMembers, separated, List.append_assoc, List.cons_append,
          List.length_append, List.length_cons] at text enough
        rw [readMembers_first text begun reads (.lineBreak_append outer _) (by omega),
          skipSpace_lineBreak, skipSpace_cons (c := '\x7d') rest (by decide)]
        simp [Members.put_fresh fresh]
      · have pieces := indentedMembers_ne_nil last depth
        simp only [indentedMembers, separated_cons pieces, List.append_assoc, List.cons_append,
          List.length_append, List.length_cons] at text enough
        rw [readMembers_first text begun reads (.comma _) (by omega),
          skipSpace_cons (c := ',') _ (by decide)]
        simp only [Members.put_fresh fresh]
        rw [ih last _ (fun x member => begins x (List.mem_cons_of_mem _ member))
          (fun x member => each x (List.mem_cons_of_mem _ member)) _ (by omega)]
        · simp
        · simpa using distinct
        · rw [skipSpace_lineBreak]
          obtain ⟨behind, starts⟩ := separated_members_eq_cons last depth (',' :: lineBreak depth)
          rw [starts]
          exact skipSpace_cons _ (by decide)

/-- A list that opens and is not closed at once holds the items that are read. -/
theorem readValue_list {room inner : Option Nat} {items : List Json} {fuel : Nat}
    {cs after : List Char} (enters : enter true room = .ok inner)
    (begins : BeginsValue (skipSpace cs))
    (reads : readItems dialect inner fuel (skipSpace cs) = .ok (items, after))
    : readValue dialect room (fuel + 1) ('[' :: cs) = .ok (.list items, after) := by
  obtain ⟨first, rest, starts, -, other⟩ := begins
  rw [starts] at reads
  simp [readValue, starts, other, enters, reads, bind, Except.bind, pure, Except.pure]

/-- An object that opens and is not closed at once holds the members that are read. -/
theorem readValue_object {room inner : Option Nat} {members : List (String × Json)} {fuel : Nat}
    {cs behind after : List Char} (enters : enter false room = .ok inner)
    (begins : skipSpace cs = '"' :: behind)
    (reads : readMembers dialect inner fuel [] (skipSpace cs) = .ok (members, after))
    : readValue dialect room (fuel + 1) ('\x7b' :: cs) = .ok (.object members, after) := by
  rw [begins] at reads
  simp [readValue, begins, enters, reads, bind, Except.bind, pure, Except.pure]

/-- What begins like no string, list or object is read as a scalar. -/
theorem readValue_scalar {room : Option Nat} {value : Json} {first : Char} {fuel : Nat}
    {cs after : List Char} (other : first ≠ '"' ∧ first ≠ '[' ∧ first ≠ '\x7b')
    (reads : readScalar dialect (first :: cs) = some (value, after))
    : readValue dialect room (fuel + 1) (first :: cs) = .ok (value, after) := by
  simp [readValue, other, reads, orMalformed]

/-- It is enough to read a value with fuel for a first step. -/
theorem ReadsBack.of_succ {room : Option Nat} {value : Json}
    (begins : ∀ depth, BeginsValue (indentedChars depth value))
    (reads : ∀ depth rest fuel, IsBehind rest →
      2 * (indentedChars depth value).length ≤ fuel + 1 →
      readValue dialect room (fuel + 1) (indentedChars depth value ++ rest) = .ok (value, rest))
    : ReadsBack dialect room value := by
  intro depth rest fuel behind enough
  cases fuel with
  | zero =>
      obtain ⟨first, more, starts, -, -⟩ := begins depth
      simp [starts] at enough
  | succ fuel => exact reads depth rest fuel behind enough

/-- A readable value is read back from its text, by induction on how it is readable. -/
theorem Readable.readsBack {room : Option Nat} {value : Json}
    (readable : Readable dialect room value)
    : ReadsBack dialect room value := by
  refine .of_succ readable.beginsValue ?_
  induction readable with
  | null => exact fun _ _ _ _ _ => readValue_scalar (by decide) rfl
  | bool value =>
      cases value <;> exact fun _ _ _ _ _ => readValue_scalar (by decide) rfl
  | @integer room n short =>
      intro depth rest fuel behind _
      have reads := readScalar_integerChars n short behind
      obtain ⟨first, digits, written, numeral⟩ := integerChars_eq_cons n
      rw [written] at reads
      simp only [indentedChars, scalarChars, written]
      refine readValue_scalar ?_ reads
      rcases numeral with rfl | digit
      · decide
      · refine ⟨?_, ?_, ?_⟩ <;> (rintro rfl; contradiction)
  | text s =>
      intro depth rest fuel _ _
      simp [indentedChars, scalarChars, stringChars, readValue, readString_escaped, orMalformed]
  | emptyList => exact fun _ _ _ _ _ => rfl
  | @list room inner items enters someItems each ih =>
      intro depth rest fuel _ enough
      have pieces := indentedItems_ne_nil someItems (depth + 1)
      have begins : ∀ item ∈ items, BeginsValue (indentedChars (depth + 1) item) :=
        fun item member => (each item member).beginsValue _
      have reads : ∀ item ∈ items, ReadsBack dialect inner item :=
        fun item member => .of_succ (each item member).beginsValue (ih item member)
      simp only [indentedChars, bracketed_of_ne_nil pieces, List.length_cons, List.length_append]
        at enough
      simp only [indentedChars, bracketed_of_ne_nil pieces, List.cons_append, List.append_assoc,
        List.nil_append]
      have opened := (beginsValue_items someItems begins (',' :: lineBreak (depth + 1))).append
        (lineBreak depth ++ ']' :: rest)
      have skipped := (skipSpace_lineBreak (depth + 1) _).trans opened.skipSpace
      refine readValue_list enters ?_ ?_
      · rw [skipped]
        exact opened
      · have text := (congrArg skipSpace skipped).trans opened.skipSpace
        exact readItems_indented someItems begins reads text (by omega)
  | emptyObject => exact fun _ _ _ _ _ => rfl
  | @object room inner members enters someMembers distinct each ih =>
      intro depth rest fuel _ enough
      have pieces := indentedMembers_ne_nil someMembers (depth + 1)
      have begins : ∀ member ∈ members, BeginsValue (indentedChars (depth + 1) member.2) :=
        fun member known => (each member known).beginsValue _
      have reads : ∀ member ∈ members, ReadsBack dialect inner member.2 :=
        fun member known => .of_succ (each member known).beginsValue (ih member known)
      simp only [indentedChars, bracketed_of_ne_nil pieces, List.length_cons, List.length_append]
        at enough
      simp only [indentedChars, bracketed_of_ne_nil pieces, List.cons_append, List.append_assoc,
        List.nil_append]
      obtain ⟨behind, starts⟩ :=
        separated_members_eq_cons someMembers (depth + 1) (',' :: lineBreak (depth + 1))
      have skipped : ∀ after, skipSpace (lineBreak (depth + 1)
          ++ (separated (',' :: lineBreak (depth + 1)) (indentedMembers (depth + 1) members)
            ++ after))
          = '"' :: (behind ++ after) := by
        intro after
        rw [skipSpace_lineBreak, starts, List.cons_append, skipSpace_cons _ (by decide)]
      refine readValue_object enters (skipped _) ?_
      refine readMembers_indented someMembers depth distinct begins reads ?_ (by omega)
      rw [skipped, skipSpace_cons _ (by decide), starts, List.cons_append]

/-- A readable value is read from its indented text. -/
theorem read_indented {value : Json} (readable : Readable dialect dialect.maxDepth value)
    : read dialect (indented value) = .ok value := by
  have skipped := (readable.beginsValue 0).skipSpace
  have reads := readable.readsBack 0 [] (2 * (indentedChars 0 value).length + 2) .nothing (by omega)
  rw [List.append_nil] at reads
  simp only [read, indented, String.toList_ofList, skipped, reads, bind, Except.bind]
  rfl

end Wavetable.Json
