import Mathlib.Tactic.NormNum
import Wavetable.Catalogue.Bundle

/-!
Identifiers read back. An identifier of 128 bits is read from its text, every identifier that is
read has no more bits, and neither has that of a bundled formula.
-/

namespace Wavetable.Catalogue

-----------------------------------------------------------------------------------------
-- Digits
-----------------------------------------------------------------------------------------

theorem length_hexDigits (width n : Nat) : (Text.hexDigits width n).length = width := by
  induction width generalizing n with
  | zero => rfl
  | succ width ih => simp [Text.hexDigits, ih]

theorem mem_hexDigits {width n : Nat} {c : Char} (member : c ∈ Text.hexDigits width n)
    : ∃ d < 16, c = Nat.digitChar d := by
  induction width generalizing n with
  | zero => simp [Text.hexDigits] at member
  | succ width ih =>
      rcases List.mem_append.mp member with before | last
      · exact ih before
      · exact ⟨n % 16, Nat.mod_lt _ (by decide), List.mem_singleton.mp last⟩

theorem hexValue?_digitChar {d : Nat} (small : d < 16)
    : Json.hexValue? (Nat.digitChar d) = some d := by
  have each : ∀ d < 16, Json.hexValue? (Nat.digitChar d) = some d := by decide
  exact each d small

/-- A hexadecimal digit in lower case is none of the marks of an identifier. -/
theorem digitChar_ne_marks {d : Nat} (small : d < 16)
    : Nat.digitChar d ≠ '-' ∧ Nat.digitChar d ≠ '\x7b' ∧ Nat.digitChar d ≠ 'u' := by
  have each : ∀ d < 16,
      Nat.digitChar d ≠ '-' ∧ Nat.digitChar d ≠ '\x7b' ∧ Nat.digitChar d ≠ 'u' := by decide
  exact each d small

/-- The digits of a number are read as the digits of what they can hold of it. -/
theorem mapM_hexDigits (width n : Nat)
    : ∃ values, (Text.hexDigits width n).mapM Json.hexValue? = some values
        ∧ values.foldl (fun n d => 16 * n + d) 0 = n % 16 ^ width := by
  induction width generalizing n with
  | zero => exact ⟨[], rfl, by simp [Nat.mod_one]⟩
  | succ width ih =>
      obtain ⟨values, read, value⟩ := ih (n / 16)
      refine ⟨values ++ [n % 16], ?_, ?_⟩
      · simp [Text.hexDigits, List.mapM_append, read,
          hexValue?_digitChar (Nat.mod_lt n (by decide : 0 < 16))]
      · rw [List.foldl_append, value, Nat.pow_succ, Nat.mul_comm (16 ^ width), Nat.mod_mul]
        simp only [List.foldl_cons, List.foldl_nil]
        omega

/-- Digits below a base write a number below a power of it. The bound holds from any start on, by
induction on the digits.
-/
theorem foldl_digits_lt {base : Nat} {digits : List Nat} (small : ∀ d ∈ digits, d < base)
    (start : Nat)
    : digits.foldl (fun n d => base * n + d) start < (start + 1) * base ^ digits.length := by
  induction digits generalizing start with
  | nil => simp
  | cons d rest ih =>
      have below := small d List.mem_cons_self
      have later := ih (fun x member => small x (List.mem_cons_of_mem _ member)) (base * start + d)
      have grown : base * start + d + 1 ≤ (start + 1) * base := by
        rw [Nat.add_mul, Nat.one_mul, Nat.mul_comm start]
        omega
      calc
        (d :: rest).foldl (fun n d => base * n + d) start
            < (base * start + d + 1) * base ^ rest.length := later
        _ ≤ (start + 1) * base * base ^ rest.length := Nat.mul_le_mul_right _ grown
        _ = (start + 1) * base ^ (d :: rest).length := by
          rw [List.length_cons, Nat.pow_succ, Nat.mul_assoc, Nat.mul_comm base]

-----------------------------------------------------------------------------------------
-- Texts
-----------------------------------------------------------------------------------------

namespace Uuid

/-- The identifier has 128 bits. -/
def IsValid (id : Uuid) : Prop :=
  id.value < 2 ^ 128

/-- Groups without their dashes are the digits. -/
theorem filter_grouped {digits : List Char} (plain : ∀ c ∈ digits, c ≠ '-')
    : (grouped digits).filter (· ≠ '-') = digits := by
  have kept : ∀ group : List Char, group ⊆ digits → group.filter (· ≠ '-') = group :=
    fun group part => List.filter_eq_self.mpr fun c member => by simpa using plain c (part member)
  have taken : ∀ first count, (digits.drop first).take count ⊆ digits := fun _ _ =>
    List.Subset.trans (List.take_subset _ _) (List.drop_subset _ _)
  have joined : ∀ first count, (digits.drop first).take count ++ digits.drop (first + count)
      = digits.drop first := fun first count => by
    rw [← List.drop_drop, List.take_append_drop]
  simp only [grouped, List.filter_append, List.filter_cons, ne_eq, not_true_eq_false,
    decide_false, Bool.false_eq_true, if_false]
  simp only [← ne_eq]
  rw [kept _ (List.take_subset _ _), kept _ (taken 8 4), kept _ (taken 12 4), kept _ (taken 16 4),
    kept _ (List.drop_subset _ _), joined 16 4, joined 12 4, joined 8 4, List.take_append_drop]

theorem ofDigits?_hexDigits {id : Uuid} (valid : id.IsValid)
    : ofDigits? (Text.hexDigits 32 id.value) = some id := by
  obtain ⟨values, read, value⟩ := mapM_hexDigits 32 id.value
  have whole : id.value % 16 ^ 32 = id.value :=
    Nat.mod_eq_of_lt (Nat.lt_of_lt_of_eq valid (by norm_num))
  rw [ofDigits?, if_pos (length_hexDigits 32 id.value), read, Option.map_some, value, whole]

/-- An identifier is read from its text. -/
theorem ofText?_toText {id : Uuid} (valid : id.IsValid) : ofText? id.toText = some id := by
  have marks : ∀ c ∈ Text.hexDigits 32 id.value, c ≠ '-' ∧ c ≠ '\x7b' ∧ c ≠ 'u' := by
    intro c member
    obtain ⟨d, small, rfl⟩ := mem_hexDigits member
    exact digitChar_ne_marks small
  have read := ofDigits?_hexDigits valid
  have long := length_hexDigits 32 id.value
  rw [ofText?, toText, String.toList_ofList]
  generalize Text.hexDigits 32 id.value = digits at *
  obtain ⟨first, rest, rfl⟩ : ∃ first rest, digits = first :: rest :=
    List.exists_cons_of_ne_nil (by rintro rfl; exact absurd long (by decide))
  obtain ⟨-, brace, letter⟩ := marks first List.mem_cons_self
  have ungrouped : ungrouped? (grouped (first :: rest)) = some (first :: rest) := by
    simp only [ungrouped?, filter_grouped fun c member => (marks c member).1, if_true]
  have dashed : (grouped (first :: rest)).contains '-' = true := by
    simp [grouped]
  rw [ofChars?.eq_def]
  split
  next same => exact absurd (List.cons.inj same).1 brace
  next same => exact absurd (List.cons.inj same).1 letter
  next =>
    rw [if_pos dashed, ungrouped]
    exact read

theorem hexValue?_lt {c : Char} {d : Nat} (read : Json.hexValue? c = some d) : d < 16 := by
  have within : ∀ {first last : Char}, c ≤ last
      → c.toNat - first.toNat ≤ last.toNat - first.toNat := fun le => Nat.sub_le_sub_right le _
  unfold Json.hexValue? at read
  simp only [Bool.and_eq_true, decide_eq_true_eq] at read
  split at read
  next range =>
    obtain rfl := Option.some.inj read
    exact Nat.lt_of_le_of_lt (within range.2) (by decide)
  next =>
    split at read
    next range =>
      obtain rfl := Option.some.inj read
      exact Nat.lt_of_le_of_lt (Nat.add_le_add_right (within range.2) 10) (by decide)
    next =>
      split at read
      next range =>
        obtain rfl := Option.some.inj read
        exact Nat.lt_of_le_of_lt (Nat.add_le_add_right (within range.2) 10) (by decide)
      next => contradiction

/-- Digits that are read are as many as the characters, and each is below sixteen. -/
theorem mapM_hexValue?_lt {digits : List Char} {values : List Nat}
    (read : digits.mapM Json.hexValue? = some values)
    : values.length = digits.length ∧ ∀ d ∈ values, d < 16 := by
  induction digits generalizing values with
  | nil =>
      obtain rfl : [] = values := by simpa using read
      simp
  | cons c rest ih =>
      simp only [List.mapM_cons, Option.bind_eq_bind, Option.bind_eq_some_iff, Option.pure_def,
        Option.some.injEq] at read
      obtain ⟨d, first, others, later, rfl⟩ := read
      obtain ⟨length, small⟩ := ih later
      exact ⟨by simp [length], List.forall_mem_cons.mpr ⟨hexValue?_lt first, small⟩⟩

theorem isValid_of_ofDigits? {digits : List Char} {id : Uuid} (read : ofDigits? digits = some id)
    : id.IsValid := by
  unfold ofDigits? at read
  split at read
  next long =>
    obtain ⟨values, each, rfl⟩ := Option.map_eq_some_iff.mp read
    obtain ⟨length, small⟩ := mapM_hexValue?_lt each
    have bound := foldl_digits_lt small 0
    rw [length, long] at bound
    exact bound
  next => contradiction

/-- Every identifier that is read has 128 bits, in each of the forms. -/
theorem isValid_of_ofText? {s : String} {id : Uuid} (read : ofText? s = some id)
    : id.IsValid := by
  have ungrouped : ∀ cs, (ungrouped? cs >>= ofDigits?) = some id → id.IsValid := by
    intro cs read
    obtain ⟨digits, -, read⟩ := Option.bind_eq_some_iff.mp read
    exact isValid_of_ofDigits? read
  rw [ofText?, ofChars?.eq_def] at read
  split at read
  next =>
    split at read
    next => exact ungrouped _ read
    next => contradiction
  next => exact ungrouped _ read
  next =>
    split at read
    next => exact ungrouped _ read
    next => exact isValid_of_ofDigits? read

end Uuid

/-- The identifier of a bundled formula has 128 bits, since its digest has sixteen bytes. -/
theorem BundleKey.isValid_id (key : BundleKey) (ordinal : Int) : (key.id ordinal).IsValid := by
  have short : (Digest.stableBytes 16 (key.payload ordinal)).length ≤ 16 := by
    rw [Digest.stableBytes, Digest.Blake2b.digest]
    exact List.length_take_le _ _
  rw [BundleKey.id]
  generalize Digest.stableBytes 16 (key.payload ordinal) = bytes at short
  have small : ∀ d ∈ bytes.map (·.toNat), d < 256 := by
    simp only [List.forall_mem_map]
    exact fun byte _ => byte.toNat_lt
  have bound := foldl_digits_lt small 0
  rw [List.foldl_map, List.length_map] at bound
  have few : 256 ^ bytes.length ≤ 256 ^ 16 := Nat.pow_le_pow_right (by decide) short
  rw [Nat.zero_add, Nat.one_mul] at bound
  exact Nat.lt_of_lt_of_le bound few

end Wavetable.Catalogue
