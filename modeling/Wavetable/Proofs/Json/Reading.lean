import Wavetable.Proofs.Json.Arrangement
import Wavetable.Proofs.Json.Compact

/-!
Texts of the grammar are read. Whatever its blanks, its escapes and its numerals are and however
deep its parts lie, a text that writes a value is read as that value, if no object gives a name
twice and no whole number is too long.
-/

namespace Wavetable.Json

open Wavetable.Number

/-- The reader of settings, for values of any depth. -/
def deep : Dialect :=
  ⟨none, true, false⟩

-----------------------------------------------------------------------------------------
-- Strings
-----------------------------------------------------------------------------------------

theorem stringUnits_cons {c : Char} {cs : List Char} (noMark : c ≠ '"') (noBackslash : c ≠ '\\')
    (noControl : 0x20 ≤ c.toNat)
    : stringUnits (c :: cs)
      = (stringUnits cs).map fun (units, rest) => (c.toNat :: units, rest) := by
  rw [stringUnits]
  · simp only [Nat.not_lt.mpr noControl, if_false]
    cases stringUnits cs <;> rfl
  · exact noMark
  · intro _ _ _ _ _ backslash
    exact absurd backslash noBackslash
  · intro _ _ backslash
    exact absurd backslash noBackslash

/-- The inside of a string is read up to its closing mark, by induction on what it is made of. -/
theorem WritesUnits.reads {cs : List Char} {units : List Nat} (written : WritesUnits cs units)
    (rest : List Char)
    : stringUnits (cs ++ '"' :: rest) = some (units, rest) := by
  induction written with
  | nothing => rw [List.nil_append, stringUnits]
  | plain noMark noBackslash noControl _ ih =>
      rw [List.cons_append, stringUnits_cons noMark noBackslash noControl, ih]
      rfl
  | @named letter c cs units named _ ih =>
      have other : letter ≠ 'u' := by
        rintro rfl
        contradiction
      rw [List.cons_append, List.cons_append, stringUnits, named, ih]
      · rfl
      · intro _ _ _ _ _ coded
        exact absurd coded other
  | coded coded _ ih =>
      simp only [List.cons_append]
      rw [stringUnits, coded, ih]
      rfl

theorem readString_of_writesUnits {cs : List Char} {units : List Nat} {chars : List Char}
    (inside : WritesUnits cs units) (joined : joinHalves true units = some chars)
    (rest : List Char)
    : readString deep (cs ++ '"' :: rest) = some (String.ofList chars, rest) := by
  have joined : joinHalves deep.keepsHalves units = some chars := joined
  simp [readString, inside.reads rest, joined]

-----------------------------------------------------------------------------------------
-- Numbers
-----------------------------------------------------------------------------------------

section
variable {digits rest : List Char}

theorem Stops.endsDigits (stops : Stops rest) : EndsDigits rest := by
  intro c first
  have other := stops c first
  by_contra digit
  rw [isBare_of_isDigit (Bool.eq_true_of_not_eq_false digit)] at other
  contradiction

theorem IsWhole.reads (whole : IsWhole digits) (ends : EndsDigits rest)
    : readWhole (digits ++ rest) = some (digits, rest) := by
  have spanned := spanDigits_append whole.each ends
  obtain ⟨first, more, rfl⟩ := List.exists_cons_of_ne_nil whole.someDigits
  unfold readWhole
  split
  next zero =>
    obtain ⟨rfl, rfl⟩ := List.cons.inj zero
    rw [whole.noIdleZero more rfl]
    rfl
  next => rw [spanned]

theorem WritesFraction.reads {fraction : List Char} {places : Option (List Char)}
    (written : WritesFraction fraction places) (ends : EndsDigits rest)
    (noPoint : rest.head? ≠ some '.')
    : readFraction (fraction ++ rest) = some (places, rest) := by
  cases written with
  | nothing =>
      rw [List.nil_append]
      unfold readFraction
      split
      next => exact absurd rfl noPoint
      next => rfl
  | point someDigits each =>
      rw [List.cons_append, readFraction, spanDigits_append each ends]
      split
      next none => exact absurd (Prod.mk.inj none).1 someDigits
      next same =>
        obtain ⟨rfl, rfl⟩ := Prod.mk.inj same
        rfl

/-- A power of ten is read with its sign, by cases of the sign. -/
theorem WritesSign.reads {sign : List Char} {negative : Bool} (signed : WritesSign sign negative)
    (someDigits : digits ≠ []) (each : ∀ c ∈ digits, c.isDigit = true) (ends : EndsDigits rest)
    : readPower (sign ++ digits ++ rest)
      = some (if negative then -(digitsValue digits : Int) else digitsValue digits, rest) := by
  have spanned := spanDigits_append each ends
  obtain ⟨first, more, rfl⟩ := List.exists_cons_of_ne_nil someDigits
  have digit := each first List.mem_cons_self
  cases signed with
  | nothing =>
      have noMinus : first ≠ '-' := by
        rintro rfl
        contradiction
      have noPlus : first ≠ '+' := by
        rintro rfl
        contradiction
      simp only [List.nil_append, List.cons_append] at spanned ⊢
      simp [readPower, noMinus, noPlus, spanned]
  | plus =>
      simp only [List.cons_append, List.nil_append] at spanned ⊢
      simp [readPower, spanned]
  | minus =>
      simp only [List.cons_append, List.nil_append] at spanned ⊢
      simp [readPower, spanned]

theorem WritesPower.reads {tail : List Char} {power : Option Int} (written : WritesPower tail power)
    (stops : Stops rest)
    : readExponent (tail ++ rest) = some (power, rest) := by
  cases written with
  | nothing =>
      rw [List.nil_append]
      unfold readExponent
      split
      next => exact absurd (stops 'e' rfl) (by decide)
      next => exact absurd (stops 'E' rfl) (by decide)
      next => rfl
  | letter letters signed someDigits each =>
      rcases letters with rfl | rfl <;>
        rw [List.cons_append, readExponent, signed.reads someDigits each stops.endsDigits] <;> rfl

/-- Digits without an idle zero are no more than those of their value. -/
theorem IsWhole.length_le (whole : IsWhole digits)
    : digits.length ≤ (digitChars (digitsValue digits)).length := by
  obtain ⟨first, more, rfl⟩ := List.exists_cons_of_ne_nil whole.someDigits
  have some : 0 < (digitChars (digitsValue (first :: more))).length :=
    List.length_pos_of_ne_nil (digitChars_ne_nil _)
  rcases eq_or_ne first '0' with rfl | other
  · rw [whole.noIdleZero more rfl] at some ⊢
    exact some
  · by_contra short
    rw [List.length_cons] at short
    have below := (Nat.length_toDigits_le_iff (by decide) (show 0 < more.length by omega)).mp
      (show (digitChars (digitsValue (first :: more))).length ≤ more.length by omega)
    exact absurd (pow_le_digitsValue (whole.each first List.mem_cons_self) other)
      (Nat.not_le_of_lt below)

/-- The sign of a number and its size. -/
theorem IsWhole.readScalar {dialect : Dialect} (whole : IsWhole digits) (negative : Bool)
    (behind : List Char)
    : Json.readScalar dialect (signChars negative ++ (digits ++ behind))
      = readSize dialect negative (digits ++ behind) := by
  obtain ⟨first, more, rfl⟩ := List.exists_cons_of_ne_nil whole.someDigits
  have digit := whole.each first List.mem_cons_self
  cases negative
  · exact readScalar_digit _ digit
  · exact readScalar_minus _ digit

/-- Behind the digits of a fraction stands nothing that belongs to them. -/
theorem WritesPower.head {tail : List Char} {power : Option Int} (written : WritesPower tail power)
    (stops : Stops rest)
    : ∀ c ∈ (tail ++ rest).head?, c.isDigit = false ∧ c ≠ '.' := by
  cases written with
  | nothing =>
      intro c first
      refine ⟨stops.endsDigits c first, ?_⟩
      rintro rfl
      exact absurd (stops '.' first) (by decide)
  | letter letters =>
      rintro c ⟨⟩
      rcases letters with rfl | rfl <;> decide

/-- A whole number is read, if it is not too long. -/
theorem IsWhole.readSize (whole : IsWhole digits) (negative : Bool)
    (short : (digitChars (digitsValue digits)).length ≤ Text.maxDigits) (stops : Stops rest)
    : Json.readSize deep negative (digits ++ rest)
      = some (.integer (if negative then -(digitsValue digits : Int) else digitsValue digits),
          rest) := by
  have few : digits.length ≤ Text.maxDigits := whole.length_le.trans short
  have noPoint : rest.head? ≠ some '.' := fun point => absurd (stops '.' point) (by decide)
  have fractional := WritesFraction.nothing.reads stops.endsDigits noPoint
  have powered := WritesPower.nothing.reads stops
  rw [List.nil_append] at fractional powered
  simp [Json.readSize, whole.reads stops.endsDigits, fractional, powered, Dialect.allows, deep,
    few]

/-- A number is read as the value that it writes, if it is no whole number that is too long. -/
theorem WritesNumber.reads {cs : List Char} {value : Json} (written : WritesNumber cs value)
    (short : ∀ n, value = .integer n → (digitChars n.natAbs).length ≤ Text.maxDigits)
    (stops : Stops rest)
    : readScalar deep (cs ++ rest) = some (value, rest) := by
  cases written with
  | @whole negative digits whole =>
      have size : (if negative then -(digitsValue digits : Int) else digitsValue digits).natAbs
          = digitsValue digits := by
        cases negative <;> simp
      have short := short _ rfl
      rw [size] at short
      rw [List.append_assoc, whole.readScalar, whole.readSize negative short stops]
  | @double negative digits fraction tail places power whole fractional powered marked =>
      have head := powered.head stops
      have ends : EndsDigits (tail ++ rest) := fun c first => (head c first).1
      have noPoint : (tail ++ rest).head? ≠ some '.' := fun point => (head '.' point).2 rfl
      have fractionEnds : EndsDigits (fraction ++ (tail ++ rest)) := by
        cases fractional with
        | nothing => exact ends
        | point => exact .cons (by decide)
      have wholeReads := whole.reads fractionEnds
      have fractionReads := fractional.reads ends noPoint
      have powerReads := powered.reads stops
      simp only [List.append_assoc]
      rw [whole.readScalar]
      cases places <;> cases power
      case none.none => simp at marked
      all_goals simp [readSize, wholeReads, fractionReads, powerReads, Dialect.allows, deep]

/-- A number begins with a sign or a digit. -/
theorem WritesNumber.eq_cons {cs : List Char} {value : Json} (written : WritesNumber cs value)
    : ∃ first more, cs = first :: more ∧ isBare first = true := by
  have begins : ∀ negative (behind : List Char) {digits}, IsWhole digits →
      ∃ first more, signChars negative ++ (digits ++ behind) = first :: more
        ∧ isBare first = true := by
    intro negative behind digits whole
    obtain ⟨first, more, rfl⟩ := List.exists_cons_of_ne_nil whole.someDigits
    cases negative
    · exact ⟨first, _, rfl, isBare_of_isDigit (whole.each first List.mem_cons_self)⟩
    · exact ⟨'-', _, rfl, rfl⟩
  cases written with
  | whole negative whole =>
      obtain ⟨first, more, same, bare⟩ := begins negative [] whole
      rw [List.append_nil] at same
      exact ⟨first, more, same, bare⟩
  | double negative whole => exact begins negative _ whole

end

-----------------------------------------------------------------------------------------
-- First characters
-----------------------------------------------------------------------------------------

section
variable {c : Char} {cs : List Char}

theorem IsBlank.skipSpace (blank : IsBlank cs) (rest : List Char)
    : Json.skipSpace (cs ++ rest) = Json.skipSpace rest := by
  rw [Json.skipSpace, List.dropWhile_append_of_pos blank, Json.skipSpace]

theorem skipSpace_skipSpace (cs : List Char) : skipSpace (skipSpace cs) = skipSpace cs :=
  List.dropWhile_idempotent isSpace cs

theorem isBare_of_isSpace (space : isSpace c = true) : isBare c = false := by
  simp only [isSpace, Bool.or_eq_true, decide_eq_true_eq] at space
  obtain ((rfl | rfl) | rfl) | rfl := space <;> rfl

/-- No name and no number goes on behind blanks, if none goes on behind what follows them. -/
theorem IsBlank.stops {rest : List Char} (blank : IsBlank cs) (stops : Stops rest)
    : Stops (cs ++ rest) := by
  cases cs with
  | nil => exact stops
  | cons c cs => exact .cons (isBare_of_isSpace (blank c List.mem_cons_self)) _

/-- Names and numbers begin neither as blanks nor as values with a mark. -/
theorem ne_mark_of_isBare (bare : isBare c = true)
    : isSpace c = false ∧ c ≠ ']' ∧ c ≠ '"' ∧ c ≠ '[' ∧ c ≠ '\x7b' := by
  refine ⟨Bool.eq_false_iff.mpr fun space => ?_, ?_, ?_, ?_, ?_⟩
  · rw [isBare_of_isSpace space] at bare
    contradiction
  all_goals rintro rfl; contradiction

theorem WritesValue.begins {value : Json} (written : WritesValue cs value) : BeginsValue cs := by
  cases written with
  | null => exact ⟨_, _, rfl, by decide, by decide⟩
  | yes => exact ⟨_, _, rfl, by decide, by decide⟩
  | no => exact ⟨_, _, rfl, by decide, by decide⟩
  | number written =>
      obtain ⟨first, more, rfl, bare⟩ := written.eq_cons
      have other := ne_mark_of_isBare bare
      exact ⟨first, more, rfl, other.1, other.2.1⟩
  | text written =>
      obtain ⟨-, -⟩ := written
      exact ⟨_, _, rfl, by decide, by decide⟩
  | emptyList => exact ⟨_, _, rfl, by decide, by decide⟩
  | list => exact ⟨_, _, rfl, by decide, by decide⟩
  | emptyObject => exact ⟨_, _, rfl, by decide, by decide⟩
  | object => exact ⟨_, _, rfl, by decide, by decide⟩

theorem WritesElement.begins {value : Json} (written : WritesElement cs value) (rest : List Char)
    : BeginsValue (Json.skipSpace (cs ++ rest)) := by
  obtain ⟨blank, inner, -⟩ := written
  rw [List.append_assoc, blank.skipSpace, List.append_assoc,
    (inner.begins.append _).skipSpace]
  exact inner.begins.append _

theorem WritesItems.begins {items : List Json} (written : WritesItems cs items) (rest : List Char)
    : BeginsValue (Json.skipSpace (cs ++ rest)) := by
  cases written with
  | last inner => exact inner.begins rest
  | more inner =>
      rw [List.append_assoc]
      exact inner.begins _

theorem WritesMember.begins {member : String × Json} (written : WritesMember cs member)
    (rest : List Char)
    : ∃ behind, Json.skipSpace (cs ++ rest) = '"' :: behind := by
  obtain ⟨blank, named, -, -⟩ := written
  obtain ⟨-, -⟩ := named
  rw [List.append_assoc, blank.skipSpace, List.cons_append, List.cons_append,
    skipSpace_cons _ (by decide)]
  exact ⟨_, rfl⟩

theorem WritesMembers.begins {members : List (String × Json)} (written : WritesMembers cs members)
    (rest : List Char)
    : ∃ behind, Json.skipSpace (cs ++ rest) = '"' :: behind := by
  cases written with
  | last inner => exact inner.begins rest
  | more inner =>
      rw [List.append_assoc]
      exact inner.begins _

end

-----------------------------------------------------------------------------------------
-- Values
-----------------------------------------------------------------------------------------

/-- A value that readers take as it is: no object in it gives a name twice, and no whole number in
it is too long.
-/
structure IsReadable (value : Json) : Prop where
  once : NamesOnce value
  short : ∀ n, Inside (.integer n) value → (digitChars n.natAbs).length ≤ Text.maxDigits

theorem IsReadable.item {items : List Json} (readable : IsReadable (.list items))
    : ∀ item ∈ items, IsReadable item := fun item known =>
  ⟨readable.once.items item known, fun n inside => readable.short n (.item known inside)⟩

theorem IsReadable.member {members : List (String × Json)} (readable : IsReadable (.object members))
    : ∀ member ∈ members, IsReadable member.2 := fun member known =>
  ⟨readable.once.members.2 member known, fun n inside => readable.short n (.member known inside)⟩

/-- A text is read as a value, whatever stands behind it and does not go on with it. -/
def ReadsAs (cs : List Char) (value : Json) : Prop :=
  IsReadable value → ∀ rest fuel, Stops rest → 2 * cs.length ≤ fuel →
    readValue deep none fuel (cs ++ rest) = .ok (value, rest)

/-- A text is read as a value behind the blanks before it, and up to the blanks behind it. -/
def ReadsBetweenBlanks (cs : List Char) (value : Json) : Prop :=
  IsReadable value → ∀ rest fuel, Stops rest → 2 * cs.length ≤ fuel →
    ∃ after, readValue deep none fuel (skipSpace (cs ++ rest)) = .ok (value, after)
      ∧ skipSpace after = skipSpace rest

/-- A text is read as items up to the closing bracket. -/
def ReadsAsItems (cs : List Char) (items : List Json) : Prop :=
  (∀ item ∈ items, IsReadable item) → ∀ text rest fuel,
    skipSpace text = skipSpace (cs ++ ']' :: rest) → 2 * cs.length < fuel →
      readItems deep none fuel text = .ok (items, rest)

/-- A text is read as a member, and what stands behind it decides whether there are more. -/
def ReadsAsMember (cs : List Char) (member : String × Json) : Prop :=
  IsReadable member.2 → ∀ before text rest fuel, Stops rest →
    skipSpace text = skipSpace (cs ++ rest) → 2 * cs.length ≤ fuel →
      readMembers deep none (fuel + 1) before text
        = match skipSpace rest with
          | ',' :: rest =>
              readMembers deep none fuel (Members.put before member.1 member.2) rest
          | '\x7d' :: rest => .ok (Members.put before member.1 member.2, rest)
          | _ => .error .malformed

/-- A text is read as members up to the closing bracket, behind those before. -/
def ReadsAsMembers (cs : List Char) (members : List (String × Json)) : Prop :=
  (∀ member ∈ members, IsReadable member.2) → ∀ before text rest fuel,
    ((before ++ members).map (·.1)).Nodup → skipSpace text = skipSpace (cs ++ '\x7d' :: rest) →
      2 * cs.length < fuel →
        readMembers deep none fuel before text = .ok (before ++ members, rest)

section
variable {cs : List Char}

/-- It is enough to read a text with fuel for a first step. -/
theorem ReadsAs.of_succ {value : Json} (begins : BeginsValue cs)
    (reads : IsReadable value → ∀ rest fuel, Stops rest → 2 * cs.length ≤ fuel + 1 →
      readValue deep none (fuel + 1) (cs ++ rest) = .ok (value, rest))
    : ReadsAs cs value := by
  intro readable rest fuel stops enough
  cases fuel with
  | zero =>
      obtain ⟨first, more, rfl, -, -⟩ := begins
      simp at enough
  | succ fuel => exact reads readable rest fuel stops enough

theorem WritesNumber.readsAs {value : Json} (written : WritesNumber cs value)
    : ReadsAs cs value := by
  refine .of_succ (WritesValue.number written).begins fun readable rest fuel stops _ => ?_
  have short : ∀ n, value = .integer n → (digitChars n.natAbs).length ≤ Text.maxDigits := by
    rintro n rfl
    exact readable.short n .here
  have reads := written.reads short stops
  obtain ⟨first, more, rfl, bare⟩ := written.eq_cons
  exact readValue_scalar (ne_mark_of_isBare bare).2.2 reads

theorem WritesString.readsAs {s : String} (written : WritesString cs s)
    : ReadsAs cs (.text s) := by
  refine .of_succ (WritesValue.text written).begins fun _ rest fuel _ _ => ?_
  obtain ⟨inside, joined⟩ := written
  simp [readValue, readString_of_writesUnits inside joined, orMalformed]

theorem readsAs_emptyList (blank : IsBlank cs) : ReadsAs ('[' :: (cs ++ [']'])) (.list []) := by
  refine .of_succ (WritesValue.emptyList blank).begins fun _ rest fuel _ _ => ?_
  have closed : skipSpace (cs ++ ']' :: rest) = ']' :: rest := by
    rw [blank.skipSpace, skipSpace_cons _ (by decide)]
  simp [readValue, closed]

theorem readsAs_emptyObject (blank : IsBlank cs)
    : ReadsAs ('\x7b' :: (cs ++ ['\x7d'])) (.object []) := by
  refine .of_succ (WritesValue.emptyObject blank).begins fun _ rest fuel _ _ => ?_
  have closed : skipSpace (cs ++ '\x7d' :: rest) = '\x7d' :: rest := by
    rw [blank.skipSpace, skipSpace_cons _ (by decide)]
  simp [readValue, closed]

theorem WritesItems.readsAs {items : List Json} (written : WritesItems cs items)
    (reads : ReadsAsItems cs items)
    : ReadsAs ('[' :: (cs ++ [']'])) (.list items) := by
  refine .of_succ (WritesValue.list written).begins fun readable rest fuel _ enough => ?_
  simp only [List.length_cons, List.length_append] at enough
  rw [List.cons_append, List.append_assoc]
  refine readValue_list rfl (written.begins _) ?_
  exact reads readable.item _ rest fuel (skipSpace_skipSpace _) (by omega)

theorem WritesMembers.readsAs {members : List (String × Json)} (written : WritesMembers cs members)
    (reads : ReadsAsMembers cs members)
    : ReadsAs ('\x7b' :: (cs ++ ['\x7d'])) (.object members) := by
  refine .of_succ (WritesValue.object written).begins fun readable rest fuel _ enough => ?_
  simp only [List.length_cons, List.length_append] at enough
  rw [List.cons_append, List.append_assoc]
  obtain ⟨behind, begins⟩ := written.begins ('\x7d' :: rest)
  refine readValue_object rfl begins ?_
  exact reads readable.member [] _ rest fuel readable.once.members.1 (skipSpace_skipSpace _)
    (by omega)

theorem readsBetweenBlanks {value : Json} {before after : List Char} (blank : IsBlank before)
    (written : WritesValue cs value) (reads : ReadsAs cs value) (blank' : IsBlank after)
    : ReadsBetweenBlanks (before ++ (cs ++ after)) value := by
  intro readable rest fuel stops enough
  simp only [List.length_append] at enough
  refine ⟨after ++ rest, ?_, blank'.skipSpace rest⟩
  rw [List.append_assoc, blank.skipSpace, List.append_assoc,
    (written.begins.append _).skipSpace]
  exact reads readable _ fuel (blank'.stops stops) (by omega)

theorem readsAsItems_last {item : Json} (reads : ReadsBetweenBlanks cs item)
    : ReadsAsItems cs [item] := by
  intro readable text rest fuel same enough
  obtain ⟨fuel, rfl⟩ : ∃ n, fuel = n + 1 := ⟨fuel - 1, by omega⟩
  obtain ⟨after, first, behind⟩ := reads (readable item List.mem_cons_self) (']' :: rest) fuel
    (.cons rfl rest) (by omega)
  rw [readItems, same, first]
  simp only [bind, Except.bind, behind, skipSpace_cons (c := ']') rest (by decide)]
  rfl

theorem readsAsItems_more {others : List Char} {item : Json} {items : List Json}
    (reads : ReadsBetweenBlanks cs item) (readsRest : ReadsAsItems others items)
    : ReadsAsItems (cs ++ ',' :: others) (item :: items) := by
  intro readable text rest fuel same enough
  simp only [List.length_append, List.length_cons] at enough
  obtain ⟨fuel, rfl⟩ : ∃ n, fuel = n + 1 := ⟨fuel - 1, by omega⟩
  rw [List.append_assoc, List.cons_append] at same
  obtain ⟨after, first, behind⟩ := reads (readable item List.mem_cons_self)
    (',' :: (others ++ ']' :: rest)) fuel (.cons rfl _) (by omega)
  have more := readsRest (fun part known => readable part (List.mem_cons_of_mem _ known))
    (others ++ ']' :: rest) rest fuel rfl (by omega)
  rw [readItems, same, first]
  simp only [bind, Except.bind, behind, skipSpace_cons (c := ',') _ (by decide), more]
  rfl

theorem readsAsMember {before name after : List Char} {s : String} {value : Json}
    (blank : IsBlank before) (named : WritesString name s) (blank' : IsBlank after)
    (reads : ReadsBetweenBlanks cs value)
    : ReadsAsMember (before ++ (name ++ (after ++ ':' :: cs))) (s, value) := by
  intro readable known text rest fuel stops same enough
  obtain ⟨inside, joined⟩ := named
  simp only [List.length_append, List.length_cons] at enough
  obtain ⟨behind, valued, ends⟩ := reads readable rest fuel stops (by omega)
  rw [List.append_assoc, blank.skipSpace] at same
  simp only [List.cons_append, List.append_assoc, List.nil_append] at same
  rw [skipSpace_cons _ (by decide)] at same
  have colon : skipSpace (after ++ ':' :: (cs ++ rest)) = ':' :: (cs ++ rest) := by
    rw [blank'.skipSpace, skipSpace_cons _ (by decide)]
  rw [readMembers, same]
  simp only [readString_of_writesUnits inside joined, orMalformed, bind, Except.bind, colon,
    valued, ends]
  rfl

/-- The name of a member is none of those before, if no name is given twice. -/
theorem not_mem_before {before members : List (String × Json)} {member : String × Json}
    (distinct : ((before ++ member :: members).map (·.1)).Nodup)
    : member.1 ∉ before.map (·.1) := by
  rw [List.map_append, List.nodup_append] at distinct
  exact fun known => distinct.2.2 _ known _ List.mem_cons_self rfl

theorem readsAsMembers_last {member : String × Json} (reads : ReadsAsMember cs member)
    : ReadsAsMembers cs [member] := by
  intro readable before text rest fuel distinct same enough
  obtain ⟨fuel, rfl⟩ : ∃ n, fuel = n + 1 := ⟨fuel - 1, by omega⟩
  rw [reads (readable member List.mem_cons_self) before text ('\x7d' :: rest) fuel (.cons rfl rest)
    same (by omega), skipSpace_cons rest (by decide)]
  exact congrArg (fun members => Except.ok (members, rest))
    (Members.put_fresh (not_mem_before distinct) member.2)

theorem readsAsMembers_more {others : List Char} {member : String × Json}
    {members : List (String × Json)} (reads : ReadsAsMember cs member)
    (readsRest : ReadsAsMembers others members)
    : ReadsAsMembers (cs ++ ',' :: others) (member :: members) := by
  intro readable before text rest fuel distinct same enough
  simp only [List.length_append, List.length_cons] at enough
  obtain ⟨fuel, rfl⟩ : ∃ n, fuel = n + 1 := ⟨fuel - 1, by omega⟩
  rw [List.append_assoc, List.cons_append] at same
  rw [reads (readable member List.mem_cons_self) before text (',' :: (others ++ '\x7d' :: rest))
    fuel (.cons rfl _) same (by omega), skipSpace_cons _ (by decide)]
  have more := readsRest (fun part known => readable part (List.mem_cons_of_mem _ known))
    (before ++ [member]) (others ++ '\x7d' :: rest) rest fuel (by simpa using distinct) rfl
    (by omega)
  simp only [Members.put_fresh (not_mem_before distinct), more, List.append_assoc,
    List.singleton_append]

end

mutual

/-- What writes a readable value is read as that value, by induction on how the text is made. -/
theorem WritesValue.readsAs {cs : List Char} {value : Json} (written : WritesValue cs value)
    : ReadsAs cs value := by
  match written with
  | .null =>
      exact .of_succ WritesValue.null.begins fun _ _ _ _ _ => readValue_scalar (by decide) rfl
  | .yes =>
      exact .of_succ WritesValue.yes.begins fun _ _ _ _ _ => readValue_scalar (by decide) rfl
  | .no =>
      exact .of_succ WritesValue.no.begins fun _ _ _ _ _ => readValue_scalar (by decide) rfl
  | .number written => exact written.readsAs
  | .text written => exact written.readsAs
  | .emptyList blank => exact readsAs_emptyList blank
  | .list inside => exact inside.readsAs (WritesItems.readsAsItems inside)
  | .emptyObject blank => exact readsAs_emptyObject blank
  | .object inside => exact inside.readsAs (WritesMembers.readsAsMembers inside)

theorem WritesElement.readsBetween {cs : List Char} {value : Json}
    (written : WritesElement cs value)
    : ReadsBetweenBlanks cs value := by
  match written with
  | .intro blank inner blank' =>
      exact readsBetweenBlanks blank inner (WritesValue.readsAs inner) blank'

theorem WritesItems.readsAsItems {cs : List Char} {items : List Json}
    (written : WritesItems cs items)
    : ReadsAsItems cs items := by
  match written with
  | .last inner => exact readsAsItems_last (WritesElement.readsBetween inner)
  | .more inner rest =>
      exact readsAsItems_more (WritesElement.readsBetween inner) (WritesItems.readsAsItems rest)

theorem WritesMember.readsAsMember {cs : List Char} {member : String × Json}
    (written : WritesMember cs member)
    : ReadsAsMember cs member := by
  match written with
  | .intro blank named blank' inner =>
      exact readsAsMember blank named blank' (WritesElement.readsBetween inner)

theorem WritesMembers.readsAsMembers {cs : List Char} {members : List (String × Json)}
    (written : WritesMembers cs members)
    : ReadsAsMembers cs members := by
  match written with
  | .last inner => exact readsAsMembers_last (WritesMember.readsAsMember inner)
  | .more inner rest =>
      exact readsAsMembers_more (WritesMember.readsAsMember inner)
        (WritesMembers.readsAsMembers rest)

end

/-- A text of the grammar is read as the value that it writes, if that is readable. -/
theorem read_of_isTextOf {s : String} {value : Json} (written : IsTextOf s value)
    (readable : IsReadable value)
    : read deep s = .ok value := by
  unfold IsTextOf at written
  unfold read
  generalize s.toList = cs at written
  obtain @⟨before, cs, after, _, blank, inner, blank'⟩ := written
  have start : skipSpace (before ++ (cs ++ after)) = cs ++ after := by
    rw [blank.skipSpace, (inner.begins.append _).skipSpace]
  have nothing : Stops [] := fun c => False.elim ∘ Option.not_mem_none c
  have stops := blank'.stops nothing
  have ends := blank'.skipSpace []
  rw [List.append_nil] at stops ends
  have reads := inner.readsAs readable after (2 * (cs ++ after).length + 2) stops
    (by rw [List.length_append]; omega)
  change readValue deep deep.maxDepth _ _ = _ at reads
  simp only [start, reads, bind, Except.bind, ends]
  rfl

/-- A text writes one readable value at most. -/
theorem eq_of_isTextOf {s : String} {value other : Json} (written : IsTextOf s value)
    (written' : IsTextOf s other) (readable : IsReadable value) (readable' : IsReadable other)
    : value = other := by
  have reads := read_of_isTextOf written readable
  rw [read_of_isTextOf written' readable'] at reads
  exact (Except.ok.inj reads).symm

end Wavetable.Json
