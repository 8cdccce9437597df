import Wavetable.Proofs.Json.Grammar
import Wavetable.Proofs.Json.Unambiguity
import Wavetable.Proofs.Number.DataText

/-!
Compact texts are in the grammar. If all doubles in a value are finite, its compact text writes the
value, whatever its strings are and however deep its parts lie. No compact text has a control in it.
-/

namespace Wavetable.Json

open Wavetable.Number

/-- A value stands at some depth in another one, or is that value itself. -/
inductive Inside (part : Json) : Json → Prop
  | here : Inside part part
  | item {items : List Json} {item : Json} (known : item ∈ items) (inside : Inside part item)
    : Inside part (.list items)
  | member {members : List (String × Json)} {member : String × Json} (known : member ∈ members)
    (inside : Inside part member.2)
    : Inside part (.object members)

section
variable {part value : Json} {items : List Json} {members : List (String × Json)}

theorem IsAtom.inside_iff (atom : IsAtom value) : Inside part value ↔ part = value := by
  refine ⟨fun inside => ?_, fun same => same ▸ .here⟩
  cases inside with
  | here => rfl
  | item => cases atom
  | member => cases atom

@[simp]
theorem inside_text {s : String} : Inside part (.text s) ↔ part = .text s := by
  refine ⟨fun inside => ?_, fun same => same ▸ .here⟩
  cases inside
  rfl

@[simp]
theorem inside_list
    : Inside part (.list items) ↔ part = .list items ∨ ∃ item ∈ items, Inside part item := by
  constructor
  · rintro (_ | ⟨known, inside⟩)
    · exact .inl rfl
    · exact .inr ⟨_, known, inside⟩
  · rintro (rfl | ⟨item, known, inside⟩)
    · exact .here
    · exact .item known inside

@[simp]
theorem inside_object
    : Inside part (.object members)
      ↔ part = .object members ∨ ∃ member ∈ members, Inside part member.2 := by
  constructor
  · rintro (_ | _ | ⟨known, inside⟩)
    · exact .inl rfl
    · exact .inr ⟨_, known, inside⟩
  · rintro (rfl | ⟨member, known, inside⟩)
    · exact .here
    · exact .member known inside

end

-----------------------------------------------------------------------------------------
-- Strings
-----------------------------------------------------------------------------------------

/-- A character of a string is written by a letter behind a backslash, by a code unit or by itself.
-/
theorem writesUnits_escapeChar {cs : List Char} {units : List Nat} (c : Char)
    (rest : WritesUnits cs units)
    : WritesUnits (escapeChar c ++ cs) (c.toNat :: units) := by
  by_cases named : c ∈ ['"', '\\', '\n', '\r', '\t', '\x08', '\x0c']
  · simp only [List.mem_cons, List.not_mem_nil, or_false] at named
    rcases named with rfl | rfl | rfl | rfl | rfl | rfl | rfl <;> exact .named rfl rest
  · simp only [List.mem_cons, List.not_mem_nil, or_false, not_or] at named
    by_cases control : c.toNat < 0x20
    · simp only [escapeChar, named, control, if_true, if_false]
      exact .coded (codeUnit?_control control) rest
    · simp only [escapeChar, named, control, if_false]
      exact .plain named.1 named.2.1 (Nat.le_of_not_lt control) rest

theorem writesString_stringChars (s : String) : WritesString (stringChars s) s := by
  have inside : ∀ cs : List Char, WritesUnits (cs.flatMap escapeChar) (cs.map Char.toNat) := by
    intro cs
    induction cs with
    | nil => exact .nothing
    | cons c cs ih => exact writesUnits_escapeChar c ih
  have written := WritesString.intro (inside s.toList) (joinHalves_toNat true s.toList)
  rwa [String.ofList_toList] at written

-----------------------------------------------------------------------------------------
-- Numbers
-----------------------------------------------------------------------------------------

section
variable {whole fraction tail behind : List Char} {power : Int} {x : Float}

/-- Digits with which a text without an idle zero begins. -/
theorem isWhole_of_noIdleZero (someDigits : whole ≠ []) (each : ∀ c ∈ whole, c.isDigit = true)
    (first : NoIdleZero (whole ++ behind))
    : IsWhole whole := by
  refine ⟨someDigits, each, ?_⟩
  rintro rest rfl
  have ends := first (rest ++ behind) rfl
  cases rest with
  | nil => rfl
  | cons next more =>
      have digit := each next (List.mem_cons_of_mem _ List.mem_cons_self)
      rw [ends next rfl] at digit
      contradiction

theorem signed_natAbs (n : Int)
    : (if decide (n < 0) = true then -(n.natAbs : Int) else n.natAbs) = n := by
  split
  next negative =>
    have negative := of_decide_eq_true negative
    omega
  next low =>
    have low := of_decide_eq_false (Bool.eq_false_iff.mpr low)
    omega

theorem writesNumber_integerChars (n : Int) : WritesNumber (integerChars n) (.integer n) := by
  have first := noIdleZero_digitChars n.natAbs
  rw [← List.append_nil (digitChars n.natAbs)] at first
  have whole := isWhole_of_noIdleZero (digitChars_ne_nil n.natAbs)
    (fun c => isDigit_of_mem_digitChars) first
  have written := WritesNumber.whole (decide (n < 0)) whole
  rwa [digitsValue_digitChars, signed_natAbs] at written

theorem exists_writesFraction (each : ∀ c ∈ fraction, c.isDigit = true)
    : ∃ places, WritesFraction (if fraction = [] then [] else '.' :: fraction) places
        ∧ places.getD [] = fraction ∧ (fraction ≠ [] → places.isSome) := by
  split
  next nothing => exact ⟨none, .nothing, nothing.symm, fun some => absurd nothing some⟩
  next someDigits => exact ⟨fraction, .point someDigits each, rfl, fun _ => rfl⟩

theorem exists_writesPower (powered : IsPower tail power)
    : ∃ power?, WritesPower tail power? ∧ power?.getD 0 = power
        ∧ (tail ≠ [] → power?.isSome) := by
  cases powered with
  | nothing => exact ⟨none, .nothing, rfl, fun some => absurd rfl some⟩
  | letter power =>
      have someDigits : paddedDigits 2 power.natAbs ≠ [] :=
        List.append_ne_nil_of_right_ne_nil _ (digitChars_ne_nil power.natAbs)
      have signed : WritesSign [if power < 0 then '-' else '+'] (decide (power < 0)) := by
        split
        next negative =>
          rw [decide_eq_true negative]
          exact .minus
        next low =>
          rw [decide_eq_false low]
          exact .plus
      have each : ∀ c ∈ paddedDigits 2 power.natAbs, c.isDigit = true :=
        fun c => isDigit_of_mem_paddedDigits
      have letter : 'e' = 'e' ∨ 'e' = 'E' := .inl rfl
      have written := WritesPower.letter letter signed someDigits each
      rw [digitsValue_paddedDigits, signed_natAbs] at written
      exact ⟨some power, written, rfl, fun _ => rfl⟩

theorem exists_finite (finite : x.isFinite = true)
    : ∃ negative mantissa exponent, Double.ofFloat x = .finite negative mantissa exponent := by
  change x.toModel.unpack.isFinite = true at finite
  unfold Double.ofFloat
  generalize x.toModel.unpack = f at finite
  cases f with
  | notANumber => contradiction
  | infinity => contradiction
  | zero => exact ⟨_, _, _, rfl⟩
  | finite => exact ⟨_, _, _, rfl⟩

/-- A finite double is written as the double that its text is read as. -/
theorem writesNumber_numberChars (finite : x.isFinite = true)
    : WritesNumber (numberChars x) (.number x) := by
  obtain ⟨negative, mantissa, exponent, parts⟩ := exists_finite finite
  rw [numberChars_eq, parts]
  change WritesNumber (signChars negative ++ dataChars mantissa exponent) (.number x)
  have first := noIdleZero_dataChars mantissa exponent
  have numeral := isNumeral_dataChars mantissa exponent
  generalize value : (shortest mantissa exponent).value = q at numeral
  generalize dataChars mantissa exponent = cs at first numeral ⊢
  obtain @⟨whole, fraction, tail, power, someDigits, digits, powered, marked⟩ := numeral
  have each := List.forall_mem_append.mp digits
  obtain ⟨places, fractional, rfl, point⟩ := exists_writesFraction each.2
  obtain ⟨power?, tens, rfl, letter⟩ := exists_writesPower powered
  unfold pointed at first ⊢
  rw [List.append_assoc] at first ⊢
  have written := WritesNumber.double negative (isWhole_of_noIdleZero someDigits each.1 first)
    fractional tens (marked.imp point letter)
  rwa [withSign_ofDecimal parts digits value.symm] at written

end

-----------------------------------------------------------------------------------------
-- Values
-----------------------------------------------------------------------------------------

theorem IsBlank.nil : IsBlank [] := fun _ => False.elim ∘ List.not_mem_nil

section
variable {value : Json} {cs : List Char}

theorem WritesValue.element (written : WritesValue cs value) : WritesElement cs value := by
  simpa using WritesElement.intro .nil written .nil

theorem WritesValue.member {name : String} (written : WritesValue (compactChars value) value)
    : WritesMember (memberChars (name, value)) (name, value) :=
  .intro .nil (writesString_stringChars name) .nil written.element

/-- Items with commas between them, by induction on the items. -/
theorem writesItems_separated {item : Json} {items : List Json}
    (each : ∀ part ∈ item :: items, WritesValue (compactChars part) part)
    : WritesItems (separated [','] ((item :: items).map compactChars)) (item :: items) := by
  induction items generalizing item with
  | nil => exact .last (each item List.mem_cons_self).element
  | cons next items ih =>
      have rest := ih fun part known => each part (List.mem_cons_of_mem _ known)
      have written := WritesItems.more (each item List.mem_cons_self).element rest
      simpa [separated] using written

/-- Members with commas between them, by induction on the members. -/
theorem writesMembers_separated {member : String × Json} {members : List (String × Json)}
    (each : ∀ part ∈ member :: members, WritesMember (memberChars part) part)
    : WritesMembers (separated [','] ((member :: members).map memberChars))
        (member :: members) := by
  induction members generalizing member with
  | nil => exact .last (each member List.mem_cons_self)
  | cons next members ih =>
      have rest := ih fun part known => each part (List.mem_cons_of_mem _ known)
      have written := WritesMembers.more (each member List.mem_cons_self) rest
      simpa [separated] using written

/-- The compact text of a value without other doubles writes the value, by induction on its parts.
-/
theorem writesValue_compactChars (finite : ∀ x, Inside (.number x) value → x.isFinite = true)
    : WritesValue (compactChars value) value := by
  induction value using induction with
  | atom value atom =>
      cases atom with
      | null => exact .null
      | bool truth => cases truth <;> constructor
      | integer n => exact .number (writesNumber_integerChars n)
      | number x => exact .number (writesNumber_numberChars (finite x .here))
  | text s => exact .text (writesString_stringChars s)
  | list items ih =>
      have each : ∀ item ∈ items, WritesValue (compactChars item) item :=
        fun item known => ih item known fun x inside => finite x (.item known inside)
      rw [compactChars, compactItems_eq]
      cases items with
      | nil => exact .emptyList .nil
      | cons item items => exact .list (writesItems_separated each)
  | object members ih =>
      have each : ∀ member ∈ members, WritesMember (memberChars member) member :=
        fun member known => (ih member known fun x inside => finite x (.member known inside)).member
      rw [compactChars, compactMembers_eq]
      cases members with
      | nil => exact .emptyObject .nil
      | cons member members => exact .object (writesMembers_separated each)

theorem isTextOf_compact (finite : ∀ x, Inside (.number x) value → x.isFinite = true)
    : IsTextOf (compact value) value := by
  unfold IsTextOf compact
  rw [String.toList_ofList]
  exact (writesValue_compactChars finite).element

end

-----------------------------------------------------------------------------------------
-- Controls
-----------------------------------------------------------------------------------------

section
variable {c : Char}

theorem le_toNat_of_mem_escapeChar {d : Char} (member : c ∈ escapeChar d) : 0x20 ≤ c.toNat := by
  by_cases named : d ∈ ['"', '\\', '\n', '\r', '\t', '\x08', '\x0c']
  · have each : ['"', '\\', '\n', '\r', '\t', '\x08', '\x0c'].all fun d =>
        (escapeChar d).all fun c => 0x20 ≤ c.toNat := by decide
    exact of_decide_eq_true (List.all_eq_true.mp (List.all_eq_true.mp each d named) c member)
  · simp only [List.mem_cons, List.not_mem_nil, or_false, not_or] at named
    by_cases control : d.toNat < 0x20
    · have each : ∀ n < 0x20, ['\\', 'u', '0', '0', Nat.digitChar (n / 16),
          Nat.digitChar (n % 16)].all fun c => 0x20 ≤ c.toNat := by decide
      simp only [escapeChar, named, control, if_true, if_false] at member
      exact of_decide_eq_true (List.all_eq_true.mp (each _ control) c member)
    · simp only [escapeChar, named, control, if_false] at member
      rw [List.mem_singleton.mp member]
      exact Nat.le_of_not_lt control

theorem le_toNat_of_mem_stringChars {s : String} (member : c ∈ stringChars s)
    : 0x20 ≤ c.toNat := by
  rcases List.mem_cons.mp member with rfl | member
  · decide
  rcases List.mem_append.mp member with inside | last
  · obtain ⟨d, -, member⟩ := List.mem_flatMap.mp inside
    exact le_toNat_of_mem_escapeChar member
  · rw [List.mem_singleton.mp last]
    decide

theorem le_toNat_of_isBare (bare : isBare c = true) : 0x20 ≤ c.toNat := by
  by_contra control
  have none : ∀ n < 0x20, isBare (Char.ofNat n) = false := by decide
  have other := none c.toNat (Nat.lt_of_not_le control)
  rw [Char.ofNat_toNat, bare] at other
  contradiction

/-- What holds of the comma and of all characters of the pieces. -/
theorem forall_mem_separated {holds : Char → Prop} {pieces : List (List Char)} (comma : holds ',')
    (each : ∀ piece ∈ pieces, ∀ c ∈ piece, holds c)
    : ∀ c ∈ separated [','] pieces, holds c := by
  induction pieces with
  | nil => exact fun _ => False.elim ∘ List.not_mem_nil
  | cons piece more ih =>
      obtain ⟨first, later⟩ := List.forall_mem_cons.mp each
      cases more with
      | nil => exact first
      | cons next more =>
          exact List.forall_mem_append.mpr ⟨List.forall_mem_append.mpr
            ⟨first, List.forall_mem_singleton.mpr comma⟩, ih later⟩

/-- No character of a compact text is a control, by induction on the value. -/
theorem le_toNat_of_mem_compactChars {value : Json} (member : c ∈ compactChars value)
    : 0x20 ≤ c.toNat := by
  have bracketed : ∀ {opening closing : Char} {pieces : List (List Char)}, 0x20 ≤ opening.toNat →
      0x20 ≤ closing.toNat → (∀ piece ∈ pieces, ∀ c ∈ piece, 0x20 ≤ c.toNat) →
      ∀ c ∈ opening :: (separated [','] pieces ++ [closing]), 0x20 ≤ c.toNat :=
    fun first last each => List.forall_mem_cons.mpr ⟨first, List.forall_mem_append.mpr
      ⟨forall_mem_separated (by decide) each, List.forall_mem_singleton.mpr last⟩⟩
  revert c
  change ∀ c ∈ compactChars value, 0x20 ≤ c.toNat
  induction value using induction with
  | atom value atom => exact fun c member => le_toNat_of_isBare (atom.all_bare c member)
  | text s => exact fun c => le_toNat_of_mem_stringChars
  | list items ih =>
      rw [compactChars, compactItems_eq]
      exact bracketed (by decide) (by decide) (List.forall_mem_map.mpr ih)
  | object members ih =>
      rw [compactChars, compactMembers_eq]
      refine bracketed (by decide) (by decide) (List.forall_mem_map.mpr fun member known => ?_)
      exact List.forall_mem_append.mpr ⟨fun c => le_toNat_of_mem_stringChars,
        List.forall_mem_cons.mpr ⟨by decide, ih member known⟩⟩

end

end Wavetable.Json
