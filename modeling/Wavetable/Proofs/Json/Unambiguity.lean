import Wavetable.Proofs.Json.Canonical
import Wavetable.Proofs.Number.Numerals

/-!
Compact texts are read in one way. A value is told by its compact text, and by where that text ends,
if no character of a name or number stands behind it.
-/

namespace Wavetable.Json

open Wavetable.Number

-----------------------------------------------------------------------------------------
-- Names and numbers
-----------------------------------------------------------------------------------------

/-- The characters of the names and numbers that stand without marks. -/
def isBare (c : Char) : Bool :=
  c.isAlphanum || c = '-' || c = '+' || c = '.'

theorem isBare_of_isDigit {c : Char} (digit : c.isDigit = true) : isBare c = true := by
  simp [isBare, Char.isAlphanum, digit]

/-- A sign is told apart from what it stands before. -/
theorem signChars_append_inj {negative negative' : Bool} {cs cs' : List Char}
    (size : cs.head? ≠ some '-') (size' : cs'.head? ≠ some '-')
    (same : signChars negative ++ cs = signChars negative' ++ cs')
    : negative = negative' ∧ cs = cs' := by
  cases negative <;> cases negative' <;> simp only [signChars, if_true, if_false, List.nil_append,
    List.cons_append, reduceCtorEq] at same
  · exact ⟨rfl, same⟩
  · simp [same] at size
  · simp [← same] at size'
  · exact ⟨rfl, (List.cons.inj same).2⟩

/-- The text of a double without its sign. -/
def sizeChars : Double → List Char
  | .nan => ['N', 'a', 'N']
  | .infinite _ => ['I', 'n', 'f', 'i', 'n', 'i', 't', 'y']
  | .finite _ mantissa exponent => dataChars mantissa exponent

theorem numberChars_eq (x : Float)
    : numberChars x = signChars (Double.ofFloat x).isNegative ++ sizeChars (Double.ofFloat x) := by
  unfold numberChars withNames
  cases Double.ofFloat x <;> simp [sizeChars, Double.isNegative, signChars.eq_def]

theorem dataChars_eq_cons (mantissa : Nat) (exponent : Int)
    : ∃ first rest, dataChars mantissa exponent = first :: rest ∧ first.isDigit = true :=
  (isNumeral_dataChars mantissa exponent).head

theorem dataChars_ne_cons {mantissa : Nat} {exponent : Int} {letter : Char} {rest : List Char}
    (other : letter.isDigit = false)
    : dataChars mantissa exponent ≠ letter :: rest := by
  intro same
  obtain ⟨first, digits, text, digit⟩ := dataChars_eq_cons mantissa exponent
  rw [text] at same
  rw [(List.cons.inj same).1, other] at digit
  contradiction

/-- A size begins with a letter or a digit. -/
theorem sizeChars_eq_cons (number : Double)
    : ∃ first rest, sizeChars number = first :: rest
        ∧ (first = 'N' ∨ first = 'I' ∨ first.isDigit = true) := by
  cases number with
  | nan => exact ⟨_, _, rfl, .inl rfl⟩
  | infinite => exact ⟨_, _, rfl, .inr (.inl rfl)⟩
  | finite _ mantissa exponent =>
      obtain ⟨first, rest, text, digit⟩ := dataChars_eq_cons mantissa exponent
      exact ⟨first, rest, text, .inr (.inr digit)⟩

theorem head_sizeChars_ne_minus (number : Double) : (sizeChars number).head? ≠ some '-' := by
  obtain ⟨first, rest, text, begins⟩ := sizeChars_eq_cons number
  rw [text]
  rintro ⟨⟩
  rcases begins with other | other | other <;> contradiction

/-- The text of a double is told by its sign and its size. -/
theorem numberChars_injective : Function.Injective numberChars := by
  intro x y same
  rw [numberChars_eq, numberChars_eq] at same
  obtain ⟨signs, sizes⟩ := signChars_append_inj (head_sizeChars_ne_minus _)
    (head_sizeChars_ne_minus _) same
  apply Double.ofFloat_injective
  cases left : Double.ofFloat x <;> cases right : Double.ofFloat y <;>
    simp only [left, right, Double.isNegative, sizeChars] at signs sizes
  case nan.nan => rfl
  case nan.infinite => contradiction
  case nan.finite => exact absurd sizes.symm (dataChars_ne_cons (by decide))
  case infinite.nan => contradiction
  case infinite.infinite => rw [signs]
  case infinite.finite => exact absurd sizes.symm (dataChars_ne_cons (by decide))
  case finite.nan => exact absurd sizes (dataChars_ne_cons (by decide))
  case finite.infinite => exact absurd sizes (dataChars_ne_cons (by decide))
  case finite.finite =>
    obtain ⟨rfl, rfl⟩ :=
      eq_of_dataChars_eq (isCanonical_ofFloat left) (isCanonical_ofFloat right) sizes
    rw [signs]

/-- One character of a size is no digit, so it is not the text of a whole number. -/
theorem mem_sizeChars (number : Double)
    : (∀ c ∈ sizeChars number, isBare c = true)
      ∧ ∃ c ∈ sizeChars number, c ≠ '-' ∧ c.isDigit = false := by
  cases number with
  | nan => exact ⟨List.all_eq_true.mp rfl, 'N', List.mem_cons_self, by decide, by decide⟩
  | infinite => exact ⟨List.all_eq_true.mp rfl, 'I', List.mem_cons_self, by decide, by decide⟩
  | finite _ mantissa exponent =>
      have numeral := isNumeral_dataChars mantissa exponent
      constructor
      · intro c member
        rcases numeral.mem member with digit | rfl | rfl | rfl | rfl
        · exact isBare_of_isDigit digit
        all_goals rfl
      · obtain ⟨c, member, mark⟩ := numeral.exists_mark
        refine ⟨c, member, ?_⟩
        rcases mark with rfl | rfl <;> decide

theorem isBare_of_mem_signChars {negative : Bool} {c : Char} (member : c ∈ signChars negative)
    : isBare c = true := by
  unfold signChars at member
  split at member
  next =>
    rw [List.mem_singleton.mp member]
    rfl
  next => contradiction

theorem isBare_of_mem_numberChars {x : Float} {c : Char} (member : c ∈ numberChars x)
    : isBare c = true := by
  rw [numberChars_eq] at member
  rcases List.mem_append.mp member with sign | size
  · exact isBare_of_mem_signChars sign
  · exact (mem_sizeChars _).1 c size

theorem minus_or_digit_of_mem_integerChars {n : Int} {c : Char} (member : c ∈ integerChars n)
    : c = '-' ∨ c.isDigit = true := by
  rcases List.mem_append.mp member with sign | digit
  · unfold signChars at sign
    split at sign
    next => exact .inl (List.mem_singleton.mp sign)
    next => contradiction
  · exact .inr (isDigit_of_mem_digitChars digit)

/-- No double looks like a whole number. -/
theorem integerChars_ne_numberChars (n : Int) (x : Float) : integerChars n ≠ numberChars x := by
  intro same
  obtain ⟨c, member, other, noDigit⟩ := (mem_sizeChars (Double.ofFloat x)).2
  have member : c ∈ integerChars n := by
    rw [same, numberChars_eq]
    exact List.mem_append_right _ member
  rcases minus_or_digit_of_mem_integerChars member with minus | digit
  · exact other minus
  · rw [noDigit] at digit
    contradiction

-----------------------------------------------------------------------------------------
-- Values without marks
-----------------------------------------------------------------------------------------

/-- The values that are written by a name or a number. -/
inductive IsAtom : Json → Prop
  | null : IsAtom .null
  | bool (value : Bool) : IsAtom (.bool value)
  | integer (n : Int) : IsAtom (.integer n)
  | number (x : Float) : IsAtom (.number x)

/-- The mark that a value begins with, if it does. -/
def mark? : Json → Option Char
  | .text _ => some '"'
  | .list _ => some '['
  | .object _ => some '\x7b'
  | _ => none

section
variable {value other : Json}

theorem isAtom_of_mark? (none : mark? value = none) : IsAtom value := by
  cases value with
  | null => exact .null
  | bool value => exact .bool value
  | integer n => exact .integer n
  | number x => exact .number x
  | text => contradiction
  | list => contradiction
  | object => contradiction

theorem IsAtom.mark?_eq_none (atom : IsAtom value) : mark? value = none := by
  cases atom <;> rfl

theorem IsAtom.all_bare (atom : IsAtom value) : ∀ c ∈ compactChars value, isBare c = true := by
  cases atom with
  | null => exact List.all_eq_true.mp rfl
  | bool value => cases value <;> exact List.all_eq_true.mp rfl
  | integer n =>
      intro c member
      rcases minus_or_digit_of_mem_integerChars member with rfl | digit
      · rfl
      · exact isBare_of_isDigit digit
  | number x => exact fun c => isBare_of_mem_numberChars

/-- A text that begins like none of the names in small letters. -/
def BeginsNumber (cs : List Char) : Prop :=
  ∃ first rest, cs = first :: rest ∧ first ≠ 'n' ∧ first ≠ 't' ∧ first ≠ 'f'

theorem beginsNumber_of_isDigit {first : Char} (rest : List Char) (digit : first.isDigit = true)
    : BeginsNumber (first :: rest) := by
  refine ⟨first, rest, rfl, ?_, ?_, ?_⟩ <;> (rintro rfl; contradiction)

theorem beginsNumber_integerChars (n : Int) : BeginsNumber (integerChars n) := by
  obtain ⟨first, rest, text, rfl | digit⟩ := integerChars_eq_cons n
  · exact ⟨'-', rest, text, by decide⟩
  · rw [text]
    exact beginsNumber_of_isDigit rest digit

theorem beginsNumber_numberChars (x : Float) : BeginsNumber (numberChars x) := by
  rw [numberChars_eq]
  unfold signChars
  split
  next => exact ⟨'-', _, rfl, by decide⟩
  next =>
    obtain ⟨first, rest, text, begins⟩ := sizeChars_eq_cons (Double.ofFloat x)
    rw [List.nil_append, text]
    rcases begins with rfl | rfl | digit
    · exact ⟨'N', rest, rfl, by decide⟩
    · exact ⟨'I', rest, rfl, by decide⟩
    · exact beginsNumber_of_isDigit rest digit

theorem IsAtom.exists_cons (atom : IsAtom value)
    : ∃ first rest, compactChars value = first :: rest := by
  cases atom with
  | null => exact ⟨_, _, rfl⟩
  | bool value => cases value <;> exact ⟨_, _, rfl⟩
  | integer n =>
      obtain ⟨first, rest, text, -⟩ := beginsNumber_integerChars n
      exact ⟨first, rest, text⟩
  | number x =>
      obtain ⟨first, rest, text, -⟩ := beginsNumber_numberChars x
      exact ⟨first, rest, text⟩

/-- The names in small letters are told by their texts, and from numbers. -/
theorem eq_name_of_compactChars_eq {name : Json}
    (named : name = .null ∨ ∃ truth, name = .bool truth) (atom : IsAtom value)
    (same : compactChars value = compactChars name)
    : value = name := by
  have apart : ∀ {cs}, BeginsNumber cs → cs ≠ compactChars name := by
    rintro _ ⟨first, rest, rfl, others⟩ same
    rcases named with rfl | ⟨_ | _, rfl⟩
    · exact others.1 (List.cons.inj same).1
    · exact others.2.2 (List.cons.inj same).1
    · exact others.2.1 (List.cons.inj same).1
  cases atom with
  | null => rcases named with rfl | ⟨_ | _, rfl⟩ <;> first | rfl | contradiction
  | bool truth =>
      cases truth <;> rcases named with rfl | ⟨_ | _, rfl⟩ <;> first | rfl | contradiction
  | integer n => exact absurd same (apart (beginsNumber_integerChars n))
  | number x => exact absurd same (apart (beginsNumber_numberChars x))

/-- Atoms are told by their texts. -/
theorem IsAtom.eq_of_compactChars_eq (atom : IsAtom value) (atom' : IsAtom other)
    (same : compactChars value = compactChars other)
    : value = other := by
  cases atom' with
  | null => exact eq_name_of_compactChars_eq (.inl rfl) atom same
  | bool truth => exact eq_name_of_compactChars_eq (.inr ⟨truth, rfl⟩) atom same
  | integer n =>
      cases atom with
      | null => exact (eq_name_of_compactChars_eq (.inl rfl) (.integer n) same.symm).symm
      | bool truth =>
          exact (eq_name_of_compactChars_eq (.inr ⟨truth, rfl⟩) (.integer n) same.symm).symm
      | integer m => exact congrArg Json.integer (integerChars_injective same)
      | number x => exact absurd same.symm (integerChars_ne_numberChars n x)
  | number x =>
      cases atom with
      | null => exact (eq_name_of_compactChars_eq (.inl rfl) (.number x) same.symm).symm
      | bool truth =>
          exact (eq_name_of_compactChars_eq (.inr ⟨truth, rfl⟩) (.number x) same.symm).symm
      | integer m => exact absurd same (integerChars_ne_numberChars m x)
      | number y => exact congrArg Json.number (numberChars_injective same)

end

-----------------------------------------------------------------------------------------
-- All values
-----------------------------------------------------------------------------------------

/-- A text with which no name and no number goes on. -/
def Stops (behind : List Char) : Prop :=
  ∀ c ∈ behind.head?, isBare c = false

theorem Stops.cons {c : Char} (mark : isBare c = false) (rest : List Char) : Stops (c :: rest) := by
  simpa [Stops] using mark

/-- A value is told by its text and by where the text ends. -/
def Told {α : Type} (write : α → List Char) (value : α) : Prop :=
  ∀ other behind after, Stops behind → Stops after →
    write value ++ behind = write other ++ after → value = other ∧ behind = after

section
variable {α : Type} {write : α → List Char} {closing : Char} {list list' : List α}
  {behind after : List Char}

/-- What stands behind a piece of a list: the closing bracket, or a comma and the next piece. -/
def goesOn (write : α → List Char) (closing : Char) (behind : List Char) : List α → List Char
  | [] => closing :: behind
  | next :: more => ',' :: (separated [','] ((next :: more).map write) ++ closing :: behind)

theorem separated_append (value : α) (more : List α)
    : separated [','] ((value :: more).map write) ++ closing :: behind
      = write value ++ goesOn write closing behind more := by
  cases more <;> simp [separated, goesOn]

theorem stops_goesOn (mark : isBare closing = false)
    : Stops (goesOn write closing behind list) := by
  cases list with
  | nil => exact .cons mark behind
  | cons => exact .cons rfl _

/-- The items of a list are told by their texts up to the closing bracket, by induction on the list.
-/
theorem list_told (mark : isBare closing = false) (other : closing ≠ ',')
    (begins : ∀ value, ∃ first rest, write value = first :: rest ∧ first ≠ closing)
    (told : ∀ value ∈ list, Told write value)
    (same : separated [','] (list.map write) ++ closing :: behind
      = separated [','] (list'.map write) ++ closing :: after)
    : list = list' ∧ behind = after := by
  induction list generalizing list' with
  | nil =>
      cases list' with
      | nil => exact ⟨rfl, (List.cons.inj same).2⟩
      | cons value' more' =>
          obtain ⟨first, rest, text, apart⟩ := begins value'
          rw [separated_append, text] at same
          exact absurd (List.cons.inj same).1.symm apart
  | cons value more ih =>
      cases list' with
      | nil =>
          obtain ⟨first, rest, text, apart⟩ := begins value
          rw [separated_append, text] at same
          exact absurd (List.cons.inj same).1 apart
      | cons value' more' =>
          rw [separated_append, separated_append] at same
          obtain ⟨rfl, rest⟩ := told value List.mem_cons_self _ _ _ (stops_goesOn mark)
            (stops_goesOn mark) same
          have told := fun value member => told value (List.mem_cons_of_mem _ member)
          cases more <;> cases more' <;> simp only [goesOn, List.cons.injEq] at rest
          case nil.nil => exact ⟨rfl, rest.2⟩
          case nil.cons => exact absurd rest.1 other
          case cons.nil => exact absurd rest.1.symm other
          case cons.cons =>
            obtain ⟨lists, ends⟩ := ih told rest.2
            exact ⟨congrArg (value :: ·) lists, ends⟩

end

/-- The text of a member. -/
def memberChars (member : String × Json) : List Char :=
  stringChars member.1 ++ ':' :: compactChars member.2

theorem compactItems_eq (items : List Json) : compactItems items = items.map compactChars := by
  induction items with
  | nil => rfl
  | cons item rest ih => rw [compactItems, ih, List.map_cons]

theorem compactMembers_eq (members : List (String × Json))
    : compactMembers members = members.map memberChars := by
  induction members with
  | nil => rfl
  | cons member rest ih => rw [compactMembers, ih, List.map_cons, memberChars]

/-- The marks with which values begin are no part of a name or number. -/
theorem head_compactChars (value : Json) (behind : List Char)
    : ∃ first rest, compactChars value ++ behind = first :: rest
        ∧ mark? value = if isBare first then none else some first := by
  cases atom : mark? value with
  | none =>
      have atom := isAtom_of_mark? atom
      obtain ⟨first, rest, text⟩ := atom.exists_cons
      have bare := atom.all_bare first (text ▸ List.mem_cons_self)
      exact ⟨first, rest ++ behind, by rw [text, List.cons_append], by rw [if_pos bare]⟩
  | some mark =>
      cases value <;> cases atom <;> exact ⟨_, _, rfl, rfl⟩

theorem mark?_eq_of_append_eq {value other : Json} {behind after : List Char}
    (same : compactChars value ++ behind = compactChars other ++ after)
    : mark? value = mark? other := by
  obtain ⟨first, rest, text, marked⟩ := head_compactChars value behind
  obtain ⟨first', rest', text', marked'⟩ := head_compactChars other after
  rw [text, text'] at same
  rw [marked, marked', (List.cons.inj same).1]

/-- No text of a value begins with a closing bracket. -/
theorem compactChars_begins (value : Json)
    : ∃ first rest, compactChars value = first :: rest ∧ first ≠ ']' := by
  obtain ⟨first, rest, text, marked⟩ := head_compactChars value []
  rw [List.append_nil] at text
  refine ⟨first, rest, text, ?_⟩
  rintro rfl
  rw [if_neg (by decide)] at marked
  cases value <;> cases marked

theorem IsAtom.told {value : Json} (atom : IsAtom value) : Told compactChars value := by
  intro other behind after stops stops' same
  have atom' : IsAtom other := by
    apply isAtom_of_mark?
    rw [← mark?_eq_of_append_eq same, atom.mark?_eq_none]
  obtain ⟨texts, ends⟩ := run_append_inj atom.all_bare atom'.all_bare stops stops' same
  exact ⟨atom.eq_of_compactChars_eq atom' texts, ends⟩

theorem member_told {member : String × Json} (told : Told compactChars member.2)
    : Told memberChars member := by
  intro other behind after stops stops' same
  unfold memberChars at same
  rw [List.append_assoc, List.append_assoc] at same
  obtain ⟨names, rest⟩ := stringChars_append_inj same
  obtain ⟨values, ends⟩ := told _ _ _ stops stops' (List.cons.inj rest).2
  exact ⟨Prod.ext names values, ends⟩

/-- What holds of a value if it holds of all its parts holds of all values. -/
@[elab_as_elim]
theorem induction {motive : Json → Prop} (atom : ∀ value, IsAtom value → motive value)
    (text : ∀ s, motive (.text s))
    (list : ∀ items, (∀ item ∈ items, motive item) → motive (.list items))
    (object : ∀ members, (∀ member ∈ members, motive member.2) → motive (.object members))
    (value : Json)
    : motive value :=
  @Json.rec motive (fun items => ∀ item ∈ items, motive item)
    (fun members => ∀ member ∈ members, motive member.2) (fun member => motive member.2)
    (atom _ .null) (fun truth => atom _ (.bool truth)) (fun n => atom _ (.integer n))
    (fun x => atom _ (.number x)) text list object (by simp) (by simp_all) (by simp) (by simp_all)
    (fun _ _ holds => holds) value

/-- A value is told by its compact text, by induction on its parts. -/
theorem compactChars_told (value : Json) : Told compactChars value := by
  induction value using induction with
  | atom value atom => exact atom.told
  | text s =>
      intro other behind after _ _ same
      cases other <;> cases mark?_eq_of_append_eq same
      obtain ⟨rfl, ends⟩ := stringChars_append_inj same
      exact ⟨rfl, ends⟩
  | list items ih =>
      intro other behind after _ _ same
      cases other <;> cases mark?_eq_of_append_eq same
      simp only [compactChars, compactItems_eq, List.cons_append, List.append_assoc,
        List.nil_append, List.cons.injEq, true_and] at same
      obtain ⟨rfl, ends⟩ := list_told rfl (by decide) compactChars_begins ih same
      exact ⟨rfl, ends⟩
  | object members ih =>
      intro other behind after _ _ same
      cases other <;> cases mark?_eq_of_append_eq same
      simp only [compactChars, compactMembers_eq, List.cons_append, List.append_assoc,
        List.nil_append, List.cons.injEq, true_and] at same
      obtain ⟨rfl, ends⟩ := list_told rfl (by decide) (fun _ => ⟨'"', _, rfl, by decide⟩)
        (fun member known => member_told (ih member known)) same
      exact ⟨rfl, ends⟩

/-- Different values have different compact texts. -/
theorem compact_injective : Function.Injective compact := by
  intro value other same
  have texts := String.ofList_injective same
  refine (compactChars_told value other [] [] ?_ ?_ ?_).1
  · simp [Stops]
  · simp [Stops]
  · rw [texts]

end Wavetable.Json
