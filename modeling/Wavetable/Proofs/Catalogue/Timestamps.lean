import Wavetable.Proofs.Catalogue.Calendar
import Wavetable.Proofs.Number.Digits

/-!
Points in time read back. A point in time whose offset counts whole minutes is read from its text,
and every point in time that is read, from a text or a count, is such a one.
-/

namespace Wavetable.Catalogue.Timestamp

open Number

/-- The fields name a day and a time of day, and the offset counts whole minutes, of less than a
day.
-/
structure IsWritable (t : Timestamp) : Prop where
  valid : t.isValid = true
  minutes : ∀ seconds ∈ t.offset, 60 ∣ seconds ∧ seconds.natAbs < 86400

-----------------------------------------------------------------------------------------
-- From a text that was written
-----------------------------------------------------------------------------------------

theorem digits?_paddedDigits {width n : Nat} (someDigits : 0 < width)
    : digits? (paddedDigits width n) = some n := by
  have long := le_length_paddedDigits width n
  have nonempty : (paddedDigits width n).isEmpty = false := by
    rw [List.isEmpty_eq_false_iff, ← List.length_pos_iff]
    omega
  have all : (paddedDigits width n).all Char.isDigit = true :=
    List.all_eq_true.mpr fun c => isDigit_of_mem_paddedDigits
  rw [digits?, nonempty, all]
  exact congrArg some (digitsValue_paddedDigits width n)

/-- A field is read from as many digits as it has, whatever stands behind them. -/
theorem field?_paddedDigits {width n : Nat} (someDigits : 0 < width) (fits : n < 10 ^ width)
    (rest : List Char)
    : field? width (paddedDigits width n ++ rest) = some (n, rest) := by
  simp [field?, length_paddedDigits someDigits fits, digits?_paddedDigits someDigits]

/-- What stands behind the time of day goes on with neither a digit nor a fraction. -/
def IsBehindClock (rest : List Char) : Prop :=
  ∀ c ∈ rest.head?, c.isDigit = false ∧ c ≠ '.' ∧ c ≠ ','

theorem microOfDigits_paddedDigits {micro : Nat} (fits : micro < 1000000)
    : microOfDigits (paddedDigits 6 micro) = micro := by
  have six : (paddedDigits 6 micro).length = 6 := length_paddedDigits (by decide) fits
  rw [microOfDigits, List.take_append_of_le_length (by omega), List.take_of_length_le (by omega),
    digits?_paddedDigits (by decide)]
  rfl

/-- The seconds are read with their fraction, which is left out where it is zero. -/
theorem seconds?_written {second micro : Nat} {rest : List Char} (small : second < 60)
    (fraction : micro < 1000000) (behind : IsBehindClock rest)
    : seconds? (':' :: (paddedDigits 2 second ++ (microChars micro ++ rest)))
      = some (second, micro, rest) := by
  have whole : second < 10 ^ 2 := by omega
  have ends : EndsDigits rest := fun c head => (behind c head).1
  by_cases none : micro = 0
  · subst none
    cases rest with
    | nil =>
        have alone := field?_paddedDigits (by decide) whole []
        rw [List.append_nil] at alone
        simp [seconds?, microChars, alone]
    | cons mark rest =>
        obtain ⟨-, point, comma⟩ := behind mark rfl
        simp [seconds?, microChars, field?_paddedDigits _ whole, point, comma]
  · have digits : ∀ c ∈ paddedDigits 6 micro, c.isDigit = true :=
      fun c => isDigit_of_mem_paddedDigits
    have written : (paddedDigits 6 micro).isEmpty = false := by
      have long := le_length_paddedDigits 6 micro
      exact List.isEmpty_eq_false_iff.mpr (List.length_pos_iff.mp (by omega))
    simp only [seconds?, microChars, none, if_false, List.cons_append, Option.bind_eq_bind,
      Option.bind_some, field?_paddedDigits (by decide : 0 < 2) whole, takeWhile_digits digits ends,
      dropWhile_digits digits ends, written, microOfDigits_paddedDigits fraction]
    rfl

theorem isBehindClock_offsetChars (offset : Option Int) : IsBehindClock (offsetChars offset) := by
  unfold offsetChars
  split
  next => simp [IsBehindClock]
  next seconds =>
    split
    next => simp [IsBehindClock]
    next =>
      by_cases negative : seconds < 0 <;> simp [IsBehindClock, negative]

/-- The offset is read from its sign and its whole minutes. -/
theorem offset?_offsetChars {offset : Option Int}
    (minutes : ∀ seconds ∈ offset, 60 ∣ seconds ∧ seconds.natAbs < 86400)
    : offset? (offsetChars offset) = some offset := by
  cases offset with
  | none => rfl
  | some seconds =>
      obtain ⟨whole, small⟩ := minutes seconds rfl
      by_cases zero : seconds = 0
      · simp [offsetChars, zero, offset?]
      · have count : (seconds.natAbs : Int) = 60 * (seconds.natAbs / 60 : Nat) := by omega
        simp only [offsetChars, zero, if_false]
        generalize seconds.natAbs / 60 = minutes at *
        have inDay : minutes / 60 < 24 := by omega
        have inHour : minutes % 60 < 60 := by omega
        have hours : minutes / 60 < 10 ^ 2 := by omega
        have alone := field?_paddedDigits (by decide) (by omega : minutes % 60 < 10 ^ 2) []
        rw [List.append_nil] at alone
        by_cases negative : seconds < 0
        · have total
              : -(60 * ((minutes : Int) % 60)) + -(3600 * ((minutes : Int) / 60)) = seconds := by
            omega
          simp [negative, offset?, field?_paddedDigits _ hours, alone, inDay, inHour, total]
        · have total : 3600 * ((minutes : Int) / 60) + 60 * ((minutes : Int) % 60) = seconds := by
            omega
          simp [negative, offset?, field?_paddedDigits _ hours, alone, inDay, inHour, total]

theorem isValid_iff {t : Timestamp}
    : t.isValid = true
      ↔ 1 ≤ t.year ∧ t.year ≤ 9999 ∧ 1 ≤ t.month ∧ t.month ≤ 12 ∧ 1 ≤ t.day
        ∧ t.day ≤ daysInMonth t.year t.month ∧ t.hour < 24 ∧ t.minute < 60 ∧ t.second < 60
        ∧ t.micro < 1000000 := by
  simp [isValid, and_assoc]

theorem daysInMonth_le (year month : Nat) : daysInMonth year month ≤ 31 := by
  unfold daysInMonth
  split
  next => split <;> omega
  next => split <;> omega

/-- A point in time is read from its text. -/
theorem ofText?_toText {t : Timestamp} (writable : t.IsWritable) : ofText? t.toText = some t := by
  obtain ⟨year, month, day, hour, minute, second, micro, offset⟩ := t
  obtain ⟨valid, minutes⟩ := writable
  obtain ⟨-, y, -, mo, -, d, h, mi, se, mc⟩ := isValid_iff.mp valid
  have month' := daysInMonth_le year month
  dsimp only at *
  have y : year < 10 ^ 4 := by omega
  have mo : month < 10 ^ 2 := by omega
  have d : day < 10 ^ 2 := by omega
  have h : hour < 10 ^ 2 := by omega
  have mi : minute < 10 ^ 2 := by omega
  have read : ofClock? (toText ⟨year, month, day, hour, minute, second, micro, offset⟩).toList
      = some ⟨year, month, day, hour, minute, second, micro, offset⟩ := by
    simp [ofClock?, toText, dateChars, clockChars, field?_paddedDigits _ y,
      field?_paddedDigits _ mo, field?_paddedDigits _ d, field?_paddedDigits _ h,
      field?_paddedDigits _ mi, expect?,
      seconds?_written se mc (isBehindClock_offsetChars offset), offset?_offsetChars minutes,
      checked?, valid]
  rw [ofText?, read]

-----------------------------------------------------------------------------------------
-- From any text or count
-----------------------------------------------------------------------------------------

/-- An offset that is read counts whole minutes, of less than a day. -/
theorem minutes_of_offset? {cs : List Char} {offset : Option Int} (read : offset? cs = some offset)
    : ∀ seconds ∈ offset, 60 ∣ seconds ∧ seconds.natAbs < 86400 := by
  unfold offset? at read
  split at read
  next =>
    obtain rfl := Option.some.inj read
    simp
  next =>
    obtain rfl := Option.some.inj read
    simp
  next =>
    obtain rfl := Option.some.inj read
    simp
  next sign rest _ _ =>
    split at read
    next =>
      simp only [Option.bind_eq_bind, Option.bind_eq_some_iff] at read
      obtain ⟨⟨hours, behind⟩, -, ⟨minutes, last⟩, -, read⟩ := read
      dsimp only at read
      split at read
      next small =>
        simp only [Bool.and_eq_true, decide_eq_true_eq] at small
        obtain rfl := Option.some.inj read
        intro seconds same
        obtain rfl := Option.some.inj same
        split <;> omega
      next => contradiction
    next => contradiction

theorem eq_of_checked? {t checked : Timestamp} (passed : checked? t = some checked)
    : checked.isValid = true ∧ t = checked := by
  unfold checked? at passed
  split at passed
  next valid =>
    obtain rfl := Option.some.inj passed
    exact ⟨valid, rfl⟩
  next => contradiction

/-- A date that is read names a day, since it is checked. -/
theorem isWritable_of_ofClock? {cs : List Char} {t : Timestamp} (read : ofClock? cs = some t)
    : t.IsWritable := by
  simp only [ofClock?, Option.bind_eq_bind, Option.bind_eq_some_iff] at read
  obtain ⟨⟨year, cs⟩, -, cs, -, ⟨month, cs⟩, -, cs, -, ⟨day, cs⟩, -, read⟩ := read
  dsimp only at read
  split at read
  next =>
    obtain ⟨valid, rfl⟩ := eq_of_checked? read
    exact ⟨valid, by simp⟩
  next =>
    split at read
    next =>
      simp only [Option.bind_eq_some_iff] at read
      obtain ⟨⟨hour, cs⟩, -, cs, -, ⟨minute, cs⟩, -, ⟨second, micro, cs⟩, -, offset, read, passed⟩
        := read
      obtain ⟨valid, rfl⟩ := eq_of_checked? passed
      exact ⟨valid, minutes_of_offset? read⟩
    next => contradiction

/-- A count within the years 1 to 9999 is a day of the calendar, in universal time. -/
theorem isWritable_of_ofMicroseconds? {micros : Int} {t : Timestamp}
    (read : ofMicroseconds? micros = some t)
    : t.IsWritable := by
  unfold ofMicroseconds? at read
  dsimp only at read
  split at read
  next range =>
    simp only [Bool.and_eq_true, decide_eq_true_eq] at range
    obtain rfl := Option.some.inj read
    obtain ⟨year, month, day, date, y, y', mo, mo', d, d'⟩ := civil_valid range.1 range.2
    constructor
    · rw [isValid_iff, ofMicroseconds, date]
      simp only [Int.toNat_natCast]
      exact ⟨y, y', mo, mo', d, d', by omega, by omega, by omega, by omega⟩
    · simp [ofMicroseconds]
  next => contradiction

theorem isWritable_of_ofEpoch? {count : Int} {t : Timestamp} (read : ofEpoch? count = some t)
    : t.IsWritable :=
  isWritable_of_ofMicroseconds? read

theorem isWritable_of_ofEpochFloat? {x : Float} {t : Timestamp}
    (read : ofEpochFloat? x = some t)
    : t.IsWritable := by
  simp only [ofEpochFloat?, Option.bind_eq_bind, Option.bind_eq_some_iff] at read
  obtain ⟨whole, -, micros, -, read⟩ := read
  exact isWritable_of_ofMicroseconds? read

theorem isWritable_of_ofUnsignedCount? {negative : Bool} {cs : List Char} {t : Timestamp}
    (read : ofUnsignedCount? negative cs = some t)
    : t.IsWritable := by
  unfold ofUnsignedCount? at read
  dsimp only at read
  split at read
  next =>
    split at read
    next =>
      split at read
      next => contradiction
      next => exact isWritable_of_ofEpoch? read
    next =>
      obtain ⟨x, -, read⟩ := Option.bind_eq_some_iff.mp read
      exact isWritable_of_ofEpochFloat? read
    next => contradiction
  next => contradiction

theorem isWritable_of_ofCount? {cs : List Char} {t : Timestamp} (read : ofCount? cs = some t)
    : t.IsWritable := by
  unfold ofCount? at read
  split at read <;> exact isWritable_of_ofUnsignedCount? read

/-- Every point in time that a text gives can be written. -/
theorem isWritable_of_ofText? {s : String} {t : Timestamp} (read : ofText? s = some t)
    : t.IsWritable := by
  unfold ofText? at read
  split at read
  next clock =>
    obtain rfl := Option.some.inj read
    exact isWritable_of_ofClock? clock
  next => exact isWritable_of_ofCount? read

end Wavetable.Catalogue.Timestamp
