import Mathlib.Data.List.Nodup
import Wavetable.Proofs.Catalogue.Identifiers
import Wavetable.Proofs.Json.Canonical

/-!
Identifiers of bundled formulas. Contents and number are told by the bytes that are digested, so
that as long as no digests collide no two formulas have the same identifier.
-/

namespace Wavetable.Digest.Blake2b

/-- A digest has the length that is asked for, up to the sixty-four bytes of the chain. -/
theorem length_digest {length : Nat} (short : length ≤ 64) (message : List UInt8)
    : (digest length message).length = length := by
  have word : ∀ word, (bytesOfWord word).length = 8 := fun word => by simp [bytesOfWord]
  rw [digest]
  generalize absorb (seededChain length) 0 (message.length / 128 + 1) message = chain
  rw [List.length_take, List.length_flatMap, List.map_congr_left fun w _ => word w,
    List.map_const', List.sum_replicate_nat, Vector.length_toList]
  exact Nat.min_eq_left short

end Wavetable.Digest.Blake2b

namespace Wavetable.Catalogue

-----------------------------------------------------------------------------------------
-- Contents
-----------------------------------------------------------------------------------------

/-- The bytes that are digested for the identifier of a bundled formula. -/
def BundleKey.encoded (key : BundleKey) (ordinal : Int) : List UInt8 :=
  (key.payload ordinal).canonical.toUTF8.toList

/-- The bytes are those of the canonical text, character by character. -/
theorem BundleKey.encoded_eq (key : BundleKey) (ordinal : Int)
    : key.encoded ordinal = (key.payload ordinal).canonical.toList.utf8Encode.data.toList := by
  rw [encoded, ByteArray.toList, Text.toList_loop_byteArray]
  simp

/-- The canonical text has the members in the order of their names. -/
theorem BundleKey.toList_canonical (key : BundleKey) (ordinal : Int)
    : (key.payload ordinal).canonical.toList
      = '\x7b' :: (Json.stringChars "category" ++ ':' :: (Json.stringChars key.category
        ++ ',' :: (Json.stringChars "expression" ++ ':' :: (Json.stringChars key.expression
        ++ ',' :: (Json.stringChars "multi" ++ ':' :: (Json.scalarChars (.bool key.isMultiFrame)
        ++ ',' :: (Json.stringChars "name" ++ ':' :: (Json.stringChars key.name
        ++ ',' :: (Json.stringChars "ordinal" ++ ':' :: (Json.integerChars ordinal
        ++ ['\x7d'])))))))))) := by
  simp [Json.canonical, Json.compact, payload, Json.sorted, Json.sortedMembers, Json.inOrder,
    List.mergeSort, List.MergeSort.Internal.splitInTwo, Json.compactChars, Json.compactMembers,
    Json.separated, Json.scalarChars]

theorem boolChars_append_inj {b c : Bool} {behind after : List Char}
    (same : Json.scalarChars (.bool b) ++ behind = Json.scalarChars (.bool c) ++ after)
    : b = c ∧ behind = after := by
  cases b <;> cases c <;> simp_all [Json.scalarChars]

/-- Contents and number are told by the bytes, member by member. -/
theorem BundleKey.encoded_inj {key other : BundleKey} {ordinal number : Int}
    (same : key.encoded ordinal = other.encoded number)
    : key = other ∧ ordinal = number := by
  have texts := congrArg String.toList (Text.utf8_injective same)
  rw [toList_canonical, toList_canonical] at texts
  simp only [List.cons.injEq, true_and, List.append_cancel_left_eq] at texts
  obtain ⟨category, texts⟩ := Json.stringChars_append_inj texts
  simp only [List.cons.injEq, true_and, List.append_cancel_left_eq] at texts
  obtain ⟨expression, texts⟩ := Json.stringChars_append_inj texts
  simp only [List.cons.injEq, true_and, List.append_cancel_left_eq] at texts
  obtain ⟨isMultiFrame, texts⟩ := boolChars_append_inj texts
  simp only [List.cons.injEq, true_and, List.append_cancel_left_eq] at texts
  obtain ⟨name, digits⟩ := Json.stringChars_append_inj texts
  simp only [List.cons.injEq, true_and, List.append_cancel_left_eq,
    List.append_cancel_right_eq] at digits
  refine ⟨?_, Json.integerChars_injective digits⟩
  calc
    key = ⟨key.isMultiFrame, key.category, key.expression, key.name⟩ := rfl
    _ = ⟨other.isMultiFrame, other.category, other.expression, other.name⟩ := by
      rw [isMultiFrame, category, expression, name]
    _ = other := rfl

-----------------------------------------------------------------------------------------
-- Digests
-----------------------------------------------------------------------------------------

/-- As many digits write the same number only if they are the same. The start is told as well, by
induction on the digits.
-/
theorem foldl_digits_inj {base : Nat} {left right : List Nat} (long : left.length = right.length)
    (smallLeft : ∀ d ∈ left, d < base) (smallRight : ∀ d ∈ right, d < base) {a b : Nat}
    (same : left.foldl (fun n d => base * n + d) a = right.foldl (fun n d => base * n + d) b)
    : a = b ∧ left = right := by
  induction left generalizing right a b with
  | nil =>
      obtain rfl := List.length_eq_zero_iff.mp long.symm
      exact ⟨same, rfl⟩
  | cons d left ih =>
      obtain ⟨e, right, rfl⟩ := List.exists_cons_of_length_eq_add_one long.symm
      obtain ⟨hereLeft, othersLeft⟩ := List.forall_mem_cons.mp smallLeft
      obtain ⟨hereRight, othersRight⟩ := List.forall_mem_cons.mp smallRight
      obtain ⟨next, rfl⟩ := ih (Nat.succ.inj long) othersLeft othersRight same
      have start : a = b := by
        have quotient := congrArg (· / base) next
        simpa [Nat.mul_add_div (Nat.zero_lt_of_lt hereLeft), Nat.div_eq_of_lt hereLeft,
          Nat.div_eq_of_lt hereRight] using quotient
      subst start
      exact ⟨rfl, by rw [Nat.add_left_cancel next]⟩

/-- An identifier tells its sixteen bytes. -/
theorem Uuid.ofBytes_inj {left right : List UInt8} (long : left.length = right.length)
    (same : Uuid.ofBytes left = Uuid.ofBytes right)
    : left = right := by
  have values := congrArg Uuid.value same
  simp only [ofBytes] at values
  have small : ∀ bytes : List UInt8, ∀ d ∈ bytes.map (·.toNat), d < 256 := fun bytes =>
    List.forall_mem_map.mpr fun byte _ => byte.toNat_lt
  rw [← List.foldl_map (f := UInt8.toNat) (g := fun n d => 256 * n + d),
    ← List.foldl_map (f := UInt8.toNat) (g := fun n d => 256 * n + d)] at values
  have digits := (foldl_digits_inj (by simpa using long) (small left) (small right) values).2
  exact (List.map_injective_iff.mpr fun _ _ => UInt8.toNat_inj.mp) digits

/-- No two of several byte texts have the same digest of sixteen bytes. -/
def NoCollision (messages : List (List UInt8)) : Prop :=
  ∀ left ∈ messages, ∀ right ∈ messages,
    Digest.Blake2b.digest 16 left = Digest.Blake2b.digest 16 right → left = right

theorem NoCollision.subset {messages fewer : List (List UInt8)} (apart : NoCollision messages)
    (subset : fewer ⊆ messages)
    : NoCollision fewer := fun left known right other =>
  apart left (subset known) right (subset other)

/-- As long as digests do not collide, an identifier tells contents and number. -/
theorem BundleKey.id_inj {messages : List (List UInt8)} (apart : NoCollision messages)
    {key other : BundleKey} {ordinal number : Int} (known : key.encoded ordinal ∈ messages)
    (known' : other.encoded number ∈ messages) (same : key.id ordinal = other.id number)
    : key = other ∧ ordinal = number := by
  have long : ∀ message, (Digest.Blake2b.digest 16 message).length = 16 :=
    Digest.Blake2b.length_digest (by decide)
  refine encoded_inj (apart _ known _ known' ?_)
  exact Uuid.ofBytes_inj ((long _).trans (long _).symm) same

end Wavetable.Catalogue
