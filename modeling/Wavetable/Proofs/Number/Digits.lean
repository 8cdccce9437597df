import Mathlib.Data.List.TakeDrop
import Wavetable.Proofs.Number.Positional

/-!
Runs of digits in a text: how long they are, where they end and how they begin.
-/

namespace Wavetable.Number

/-- Padded digits are as many as told, if the number has no more. -/
theorem length_paddedDigits {width n : Nat} (some : 0 < width) (fits : n < 10 ^ width)
    : (paddedDigits width n).length = width := by
  have short : (digitChars n).length ≤ width :=
    (Nat.length_toDigits_le_iff (by decide) some).mpr fits
  simp only [paddedDigits, List.length_append, List.length_replicate]
  omega

/-- A text that does not go on with a digit. -/
def EndsDigits (rest : List Char) : Prop :=
  ∀ c ∈ rest.head?, c.isDigit = false

theorem EndsDigits.nil : EndsDigits [] := by
  simp [EndsDigits]

theorem EndsDigits.cons {c : Char} {rest : List Char} (other : c.isDigit = false)
    : EndsDigits (c :: rest) := by
  simpa [EndsDigits] using other

section
variable {digits rest : List Char}

theorem takeWhile_digits (all : ∀ c ∈ digits, c.isDigit = true) (ends : EndsDigits rest)
    : (digits ++ rest).takeWhile Char.isDigit = digits := by
  rw [List.takeWhile_append_of_pos all]
  cases rest with
  | nil => simp
  | cons c rest => simp [ends c rfl]

theorem dropWhile_digits (all : ∀ c ∈ digits, c.isDigit = true) (ends : EndsDigits rest)
    : (digits ++ rest).dropWhile Char.isDigit = rest := by
  rw [List.dropWhile_append_of_pos all]
  cases rest with
  | nil => rfl
  | cons c rest => simp [ends c rfl]

theorem spanDigits_append (all : ∀ c ∈ digits, c.isDigit = true) (ends : EndsDigits rest)
    : spanDigits (digits ++ rest) = (digits, rest) := by
  rw [spanDigits, List.span_eq_takeWhile_dropWhile, takeWhile_digits all ends,
    dropWhile_digits all ends]

end

/-- A run of characters of one class is told apart from what follows, if that begins with another
one.
-/
theorem run_append_inj {inside : Char → Bool} {run run' rest rest' : List Char}
    (within : ∀ c ∈ run, inside c = true) (within' : ∀ c ∈ run', inside c = true)
    (ends : ∀ c ∈ rest.head?, inside c = false) (ends' : ∀ c ∈ rest'.head?, inside c = false)
    (same : run ++ rest = run' ++ rest')
    : run = run' ∧ rest = rest' := by
  have none : ∀ {rest : List Char}, (∀ c ∈ rest.head?, inside c = false) →
      rest.takeWhile inside = [] := by
    intro rest ends
    cases rest with
    | nil => rfl
    | cons c rest => simp [ends c rfl]
  have runs := congrArg (List.takeWhile inside) same
  rw [List.takeWhile_append_of_pos within, List.takeWhile_append_of_pos within', none ends,
    none ends', List.append_nil, List.append_nil] at runs
  subst runs
  exact ⟨rfl, List.append_cancel_left same⟩

theorem digitChars_ne_nil (n : Nat) : digitChars n ≠ [] :=
  Nat.toDigits_ne_nil

/-- Only zero begins with the digit zero, by induction on the digits. -/
theorem head_digitChars_ne_zero {n : Nat} (positive : 0 < n)
    : (digitChars n).head? ≠ some '0' := by
  induction n using Nat.strongRecOn with
  | ind n ih =>
      by_cases small : n < 10
      · rw [digitChars, Nat.toDigits_of_lt_base small]
        have each : ∀ n < 10, 0 < n → [Nat.digitChar n].head? ≠ some '0' := by decide
        exact each n small positive
      · have before := ih (n / 10) (by omega) (by omega)
        have longer : digitChars n = digitChars (n / 10) ++ [(n % 10).digitChar] :=
          Nat.toDigits_of_base_le (by decide) (by omega)
        obtain ⟨first, rest, written⟩ := List.exists_cons_of_ne_nil (digitChars_ne_nil (n / 10))
        rw [longer, written]
        simpa [written] using before

/-- A number is written with a first digit, which is zero for zero alone. -/
theorem digitChars_eq_cons (n : Nat)
    : ∃ first rest, digitChars n = first :: rest ∧ first.isDigit = true
        ∧ (0 < n → first ≠ '0') := by
  obtain ⟨first, rest, written⟩ := List.exists_cons_of_ne_nil (digitChars_ne_nil n)
  refine ⟨first, rest, written, ?_, ?_⟩
  · apply isDigit_of_mem_digitChars
    rw [written]
    exact List.mem_cons_self
  · intro positive
    have other := head_digitChars_ne_zero positive
    rw [written] at other
    simpa using other

end Wavetable.Number
