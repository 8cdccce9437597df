import Wavetable.Proofs.Json.Compact

/-!
Texts outside of their strings. There no text of the grammar has the first letter of a name of a
double that is no number. The compact text of a value with such a double has one there, so it is
no text of the grammar.
-/

namespace Wavetable.Json

open Wavetable.Number

mutual

/-- The characters of a text that stand outside of its strings. -/
def unquoted : List Char → List Char
  | [] => []
  | '"' :: rest => unquotedBehind rest
  | c :: rest => c :: unquoted rest

/-- The same where a string is open at the start of the text. -/
def unquotedBehind : List Char → List Char
  | [] => []
  | '"' :: rest => unquoted rest
  | '\\' :: _ :: rest => unquotedBehind rest
  | _ :: rest => unquotedBehind rest

end

/-- No string is open at the end of a text. -/
def Closed (cs : List Char) : Prop :=
  ∀ rest, unquoted (cs ++ rest) = unquoted cs ++ unquoted rest

section
variable {c : Char} {cs others rest : List Char}

theorem unquoted_cons (noMark : c ≠ '"') : unquoted (c :: rest) = c :: unquoted rest := by
  rw [unquoted]
  exact noMark

theorem unquotedBehind_cons (noMark : c ≠ '"') (noBackslash : c ≠ '\\')
    : unquotedBehind (c :: rest) = unquotedBehind rest := by
  rw [unquotedBehind]
  · exact noMark
  · intro _ _ backslash
    exact absurd backslash noBackslash

theorem Closed.nil : Closed [] := fun _ => rfl

theorem Closed.cons (noMark : c ≠ '"') (closed : Closed cs) : Closed (c :: cs) := by
  intro rest
  rw [List.cons_append, unquoted_cons noMark, unquoted_cons noMark, closed, List.cons_append]

theorem Closed.append (closed : Closed cs) (closed' : Closed others) : Closed (cs ++ others) := by
  intro rest
  rw [List.append_assoc, closed, closed', closed, List.append_assoc]

theorem unquoted_of_forall (noMark : ∀ c ∈ cs, c ≠ '"')
    : Closed cs ∧ unquoted cs = cs := by
  induction cs with
  | nil => exact ⟨.nil, rfl⟩
  | cons c cs ih =>
      obtain ⟨first, later⟩ := List.forall_mem_cons.mp noMark
      obtain ⟨closed, same⟩ := ih later
      exact ⟨closed.cons first, by rw [unquoted_cons first, same]⟩

/-- A hexadecimal digit is neither of the marks. -/
theorem ne_mark_of_hexValue? {n : Nat} (digit : hexValue? c = some n) : c ≠ '"' ∧ c ≠ '\\' := by
  constructor <;> (rintro rfl; contradiction)

/-- A string is left at its closing mark, by induction on what it is made of. -/
theorem WritesUnits.unquotedBehind {units : List Nat} (written : WritesUnits cs units)
    : Json.unquotedBehind (cs ++ '"' :: rest) = unquoted rest := by
  induction written with
  | nothing => rw [List.nil_append, Json.unquotedBehind]
  | plain noMark noBackslash _ _ ih =>
      rw [List.cons_append, unquotedBehind_cons noMark noBackslash, ih]
  | named _ _ ih => rw [List.cons_append, List.cons_append, Json.unquotedBehind, ih]
  | @coded a b c d _ _ _ coded _ ih =>
      simp only [codeUnit?, bind, Option.bind_eq_some_iff] at coded
      obtain ⟨_, first, _, second, _, third, _, fourth, -⟩ := coded
      have skips : ∀ {c n}, hexValue? c = some n →
          ∀ rest, Json.unquotedBehind (c :: rest) = Json.unquotedBehind rest := by
        intro c n digit rest
        obtain ⟨noMark, noBackslash⟩ := ne_mark_of_hexValue? digit
        exact unquotedBehind_cons noMark noBackslash
      simp only [List.cons_append]
      rw [Json.unquotedBehind, skips first, skips second, skips third, skips fourth, ih]

/-- Nothing of a string stands outside of it. -/
theorem WritesString.unquoted {s : String} (written : WritesString cs s)
    : Closed cs ∧ Json.unquoted cs = [] := by
  obtain ⟨inside, -⟩ := written
  have behind : ∀ rest {cs units}, WritesUnits cs units →
      Json.unquoted ('"' :: (cs ++ ['"']) ++ rest) = Json.unquoted rest := by
    intro rest cs units inside
    rw [List.cons_append, List.append_assoc, Json.unquoted]
    exact inside.unquotedBehind
  have alone := behind [] inside
  rw [List.append_nil] at alone
  refine ⟨fun rest => ?_, alone⟩
  rw [behind rest inside, alone]
  rfl

/-- Pieces with commas between them, by induction on the pieces. -/
theorem closed_separated {pieces : List (List Char)} (closed : ∀ piece ∈ pieces, Closed piece)
    : Closed (separated [','] pieces) := by
  induction pieces with
  | nil => exact .nil
  | cons piece more ih =>
      obtain ⟨first, later⟩ := List.forall_mem_cons.mp closed
      cases more with
      | nil => exact first
      | cons next more =>
          exact (first.append (.cons (by decide) .nil)).append (ih later)

/-- What stands outside of the strings of a piece does so among all pieces. -/
theorem mem_unquoted_separated {piece : List Char} {pieces : List (List Char)}
    (closed : ∀ piece ∈ pieces, Closed piece) (known : piece ∈ pieces)
    (member : c ∈ unquoted piece)
    : c ∈ unquoted (separated [','] pieces) := by
  induction pieces with
  | nil => cases known
  | cons first more ih =>
      obtain ⟨ends, others⟩ := List.forall_mem_cons.mp closed
      cases more with
      | nil => exact List.mem_singleton.mp known ▸ member
      | cons next more =>
          rw [separated_cons (List.cons_ne_nil _ _), List.append_assoc, ends, List.mem_append]
          rcases List.mem_cons.mp known with rfl | later
          · exact .inl member
          · rw [List.cons_append, List.nil_append, unquoted_cons (by decide)]
            exact .inr (List.mem_cons_of_mem _ (ih others later))

end

theorem closed_memberChars {member : String × Json} (closed : Closed (compactChars member.2))
    : Closed (memberChars member) :=
  (writesString_stringChars member.1).unquoted.1.append (closed.cons (by decide))

/-- All compact texts are closed, by induction on the value. -/
theorem closed_compactChars (value : Json) : Closed (compactChars value) := by
  have bracketed : ∀ {opening closing : Char} {pieces : List (List Char)}, opening ≠ '"' →
      closing ≠ '"' → (∀ piece ∈ pieces, Closed piece) →
      Closed (opening :: (separated [','] pieces ++ [closing])) :=
    fun first last closed => ((closed_separated closed).append (.cons last .nil)).cons first
  induction value using induction with
  | atom value atom =>
      refine (unquoted_of_forall ?_).1
      rintro c member rfl
      exact absurd (atom.all_bare _ member) (by decide)
  | text s => exact (writesString_stringChars s).unquoted.1
  | list items ih =>
      rw [compactChars, compactItems_eq]
      exact bracketed (by decide) (by decide) (List.forall_mem_map.mpr ih)
  | object members ih =>
      rw [compactChars, compactMembers_eq]
      exact bracketed (by decide) (by decide)
        (List.forall_mem_map.mpr fun member known => closed_memberChars (ih member known))

section
variable {value : Json} {x : Float} {c : Char}

/-- The text of a double in a value stands outside of all strings, by induction on its place. -/
theorem mem_unquoted_of_inside (inside : Inside (.number x) value) (member : c ∈ numberChars x)
    : c ∈ unquoted (compactChars value) := by
  have bracketed : ∀ {opening closing : Char} {piece} {pieces : List (List Char)}, opening ≠ '"' →
      (∀ piece ∈ pieces, Closed piece) → piece ∈ pieces → c ∈ unquoted piece →
      c ∈ unquoted (opening :: (separated [','] pieces ++ [closing])) := by
    intro opening closing piece pieces first closed known member
    rw [unquoted_cons first, closed_separated closed, List.mem_cons, List.mem_append]
    exact .inr (.inl (mem_unquoted_separated closed known member))
  induction inside with
  | here =>
      have plain : ∀ c ∈ numberChars x, c ≠ '"' := by
        rintro c member rfl
        exact absurd (isBare_of_mem_numberChars member) (by decide)
      change c ∈ unquoted (numberChars x)
      rwa [(unquoted_of_forall plain).2]
  | item known _ ih =>
      rw [compactChars, compactItems_eq]
      exact bracketed (by decide)
        (List.forall_mem_map.mpr fun item _ => closed_compactChars item)
        (List.mem_map_of_mem known) ih
  | @member members member known _ ih =>
      rw [compactChars, compactMembers_eq]
      refine bracketed (by decide)
        (List.forall_mem_map.mpr fun member _ => closed_memberChars (closed_compactChars member.2))
        (List.mem_map_of_mem known) ?_
      rw [memberChars, (writesString_stringChars member.1).unquoted.1,
        unquoted_cons (by decide)]
      exact List.mem_append_right _ (List.mem_cons_of_mem _ ih)

end

-----------------------------------------------------------------------------------------
-- Names of doubles that are no number
-----------------------------------------------------------------------------------------

/-- A character that is neither the mark of a string nor the first letter of the name of a double
that is no number.
-/
def IsPlain (c : Char) : Prop :=
  c ≠ '"' ∧ c ≠ 'N' ∧ c ≠ 'I'

instance (c : Char) : Decidable (IsPlain c) :=
  inferInstanceAs (Decidable (_ ∧ _))

/-- A text whose strings are closed, with plain characters alone outside of them. -/
structure Nameless (cs : List Char) : Prop where
  closed : Closed cs
  each : ∀ c ∈ unquoted cs, IsPlain c

section
variable {c : Char} {cs others : List Char}

theorem Nameless.append (first : Nameless cs) (behind : Nameless others)
    : Nameless (cs ++ others) := by
  refine ⟨first.closed.append behind.closed, ?_⟩
  rw [first.closed]
  exact List.forall_mem_append.mpr ⟨first.each, behind.each⟩

theorem Nameless.cons (plain : IsPlain c) (behind : Nameless cs) : Nameless (c :: cs) := by
  refine ⟨behind.closed.cons plain.1, ?_⟩
  rw [unquoted_cons plain.1]
  exact List.forall_mem_cons.mpr ⟨plain, behind.each⟩

theorem nameless_of_forall (plain : ∀ c ∈ cs, IsPlain c) : Nameless cs := by
  obtain ⟨closed, same⟩ := unquoted_of_forall fun c member => (plain c member).1
  exact ⟨closed, same.symm ▸ plain⟩

theorem Nameless.nil : Nameless [] := nameless_of_forall fun _ => False.elim ∘ List.not_mem_nil

theorem WritesString.nameless {s : String} (written : WritesString cs s) : Nameless cs := by
  obtain ⟨closed, nothing⟩ := written.unquoted
  refine ⟨closed, ?_⟩
  rw [nothing]
  exact Nameless.nil.each

theorem IsBlank.nameless (blank : IsBlank cs) : Nameless cs := by
  refine nameless_of_forall fun c member => ?_
  have space := blank c member
  refine ⟨?_, ?_, ?_⟩ <;> (rintro rfl; contradiction)

theorem nameless_digits (each : ∀ c ∈ cs, c.isDigit = true) : Nameless cs := by
  refine nameless_of_forall fun c member => ?_
  have digit := each c member
  refine ⟨?_, ?_, ?_⟩ <;> (rintro rfl; contradiction)

theorem nameless_signChars (negative : Bool) : Nameless (signChars negative) := by
  cases negative
  · exact .nil
  · exact .cons (by decide) .nil

theorem WritesNumber.nameless {value : Json} (written : WritesNumber cs value) : Nameless cs := by
  cases written with
  | whole negative whole => exact (nameless_signChars negative).append (nameless_digits whole.each)
  | @double negative _ fraction tail _ _ whole fractional powered _ =>
      have fractional : Nameless fraction := by
        cases fractional with
        | nothing => exact .nil
        | point _ each => exact .cons (by decide) (nameless_digits each)
      have powered : Nameless tail := by
        cases powered with
        | nothing => exact .nil
        | @letter letter sign _ _ letters signed _ each =>
            have signed : Nameless sign := by
              cases signed with
              | nothing => exact .nil
              | plus => exact .cons (by decide) .nil
              | minus => exact .cons (by decide) .nil
            refine .cons ?_ (signed.append (nameless_digits each))
            rcases letters with rfl | rfl <;> simp [IsPlain]
      exact (nameless_signChars negative).append
        ((nameless_digits whole.each).append (fractional.append powered))

end

mutual

/-- Outside of the strings of a text of the grammar all characters are plain, by induction on how
the text is made.
-/
theorem WritesValue.nameless {cs : List Char} {value : Json} (written : WritesValue cs value)
    : Nameless cs := by
  have bracketed : ∀ {opening closing : Char} {cs : List Char}, IsPlain opening →
      IsPlain closing → Nameless cs → Nameless (opening :: (cs ++ [closing])) :=
    fun first last inside => (inside.append (.cons last .nil)).cons first
  match written with
  | .null => exact nameless_of_forall (by simp [IsPlain])
  | .yes => exact nameless_of_forall (by simp [IsPlain])
  | .no => exact nameless_of_forall (by simp [IsPlain])
  | .number written => exact written.nameless
  | .text written => exact written.nameless
  | .emptyList blank => exact bracketed (by decide) (by decide) blank.nameless
  | .list inside => exact bracketed (by decide) (by decide) (WritesItems.nameless inside)
  | .emptyObject blank => exact bracketed (by decide) (by decide) blank.nameless
  | .object inside => exact bracketed (by decide) (by decide) (WritesMembers.nameless inside)

theorem WritesElement.nameless {cs : List Char} {value : Json}
    (written : WritesElement cs value)
    : Nameless cs := by
  match written with
  | .intro blank inner blank' =>
      exact blank.nameless.append ((WritesValue.nameless inner).append blank'.nameless)

theorem WritesItems.nameless {cs : List Char} {items : List Json} (written : WritesItems cs items)
    : Nameless cs := by
  match written with
  | .last inner => exact WritesElement.nameless inner
  | .more inner rest =>
      exact (WritesElement.nameless inner).append ((WritesItems.nameless rest).cons (by decide))

theorem WritesMember.nameless {cs : List Char} {member : String × Json}
    (written : WritesMember cs member)
    : Nameless cs := by
  match written with
  | .intro blank named blank' inner =>
      exact blank.nameless.append (named.nameless.append
        (blank'.nameless.append ((WritesElement.nameless inner).cons (by decide))))

theorem WritesMembers.nameless {cs : List Char} {members : List (String × Json)}
    (written : WritesMembers cs members)
    : Nameless cs := by
  match written with
  | .last inner => exact WritesMember.nameless inner
  | .more inner rest =>
      exact (WritesMember.nameless inner).append ((WritesMembers.nameless rest).cons (by decide))

end

section
variable {value : Json} {x : Float}

/-- The name of a double that is no number begins with a letter that is not plain. -/
theorem exists_not_isPlain (infinite : x.isFinite = false) : ∃ c ∈ numberChars x, ¬ IsPlain c := by
  change x.toModel.unpack.isFinite = false at infinite
  rw [numberChars_eq]
  unfold Double.ofFloat
  generalize x.toModel.unpack = f at infinite
  cases f with
  | notANumber => exact ⟨'N', List.mem_append_right _ List.mem_cons_self, by decide⟩
  | infinity => exact ⟨'I', List.mem_append_right _ List.mem_cons_self, by decide⟩
  | zero => contradiction
  | finite => contradiction

/-- The compact text of a value with a double that is no number writes nothing. -/
theorem not_isTextOf_compact (inside : Inside (.number x) value) (infinite : x.isFinite = false)
    (other : Json)
    : ¬ IsTextOf (compact value) other := by
  intro written
  unfold IsTextOf compact at written
  rw [String.toList_ofList] at written
  obtain ⟨c, member, named⟩ := exists_not_isPlain infinite
  exact named (written.nameless.each c (mem_unquoted_of_inside inside member))

/-- The compact text of a value is a text of the grammar exactly if all doubles in it are finite. -/
theorem exists_isTextOf_compact_iff
    : (∃ other, IsTextOf (compact value) other)
      ↔ ∀ x, Inside (.number x) value → x.isFinite = true := by
  refine ⟨?_, fun finite => ⟨value, isTextOf_compact finite⟩⟩
  rintro ⟨other, written⟩ x inside
  by_contra infinite
  exact not_isTextOf_compact inside (Bool.eq_false_iff.mpr infinite) other written

end

end Wavetable.Json
