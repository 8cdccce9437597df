import Wavetable.Proofs.Number.Digits
import Wavetable.Proofs.Number.ReadBack

/-!
Doubles in data are told apart by their texts. A size is written as a numeral, digits with a point
or a power of ten. A numeral has one value, that of the shortest decimal, and the shortest decimal
rounds to one size.
-/

namespace Wavetable.Number

open Float.Model (UnpackedFloat)

-----------------------------------------------------------------------------------------
-- Parts of doubles
-----------------------------------------------------------------------------------------

/-- A double is told by its parts. -/
theorem Double.ofFloat_injective : Function.Injective Double.ofFloat := by
  intro x y same
  apply eq_of_unpack
  unfold Double.ofFloat at same
  have signs : ∀ sign sign' : UnpackedFloat.Sign,
      (sign == .negative) = (sign' == .negative) → sign = sign' := by
    intro sign sign' same
    cases sign <;> cases sign' <;> first | rfl | contradiction
  generalize x.toModel.unpack = f, y.toModel.unpack = g at same
  cases f <;> cases g <;> simp only [reduceCtorEq, Double.infinite.injEq, Double.finite.injEq]
    at same ⊢
  case infinity => rw [signs _ _ same]
  case zero.zero => rw [signs _ _ same.1]
  case zero.finite => omega
  case finite.zero => omega
  case finite.finite =>
    obtain ⟨sign, rfl, rfl⟩ := same
    rw [signs _ _ sign]

theorem isCanonical_ofFloat {x : Float} {negative mantissa exponent}
    (parts : Double.ofFloat x = .finite negative mantissa exponent)
    : IsCanonical mantissa exponent := by
  unfold Double.ofFloat at parts
  split at parts
  next => contradiction
  next => contradiction
  next =>
    obtain ⟨-, rfl, rfl⟩ := Double.finite.inj parts
    exact ⟨by decide, by decide, by decide, .inr rfl⟩
  next unpacked =>
    obtain ⟨-, rfl, rfl⟩ := Double.finite.inj parts
    exact isCanonical_unpack unpacked

section
variable {mantissa mantissa' : Nat} {exponent exponent' : Int}

/-- The shortest decimal of a size that is not zero is not zero. -/
theorem value_shortest_pos (canonical : IsCanonical mantissa exponent) (positive : 0 < mantissa)
    : 0 < (shortest mantissa exponent).value := by
  have place : (2 : ℚ) ^ exponent ≠ 0 := by positivity
  have least := ((shortest_rounds canonical positive).bounds canonical positive).1
  rw [div_mul_cancel₀ _ place] at least
  exact lt_of_lt_of_le (by positivity) least

theorem exists_unpack (canonical : IsCanonical mantissa exponent) (positive : 0 < mantissa)
    : ∃ x : Float, x.toModel.unpack = .finite .positive mantissa exponent positive :=
  ⟨Float.ofModel (.pack (.finite .positive mantissa exponent positive)), unpack_pack canonical⟩

/-- A size is told by the value of its shortest decimal: a decimal is read as one double. -/
theorem eq_of_value_shortest_eq (canonical : IsCanonical mantissa exponent)
    (canonical' : IsCanonical mantissa' exponent')
    (same : (shortest mantissa exponent).value = (shortest mantissa' exponent').value)
    : mantissa = mantissa' ∧ exponent = exponent' := by
  have zero : ∀ exponent, (shortest 0 exponent).value = 0 := by simp [shortest, Decimal.value]
  rcases Nat.eq_zero_or_pos mantissa with rfl | positive <;>
    rcases Nat.eq_zero_or_pos mantissa' with rfl | positive'
  · have least : ∀ {exponent}, IsCanonical 0 exponent → exponent = -1074 :=
      fun canonical => canonical.2.2.2.resolve_left (by decide)
    exact ⟨rfl, (least canonical).trans (least canonical').symm⟩
  · rw [zero] at same
    exact absurd same (value_shortest_pos canonical' positive').ne
  · rw [zero] at same
    exact absurd same (value_shortest_pos canonical positive).ne'
  · have rounds := shortest_rounds canonical positive
    have rounds' := shortest_rounds canonical' positive'
    rw [← same] at rounds'
    obtain ⟨x, unpacked⟩ := exists_unpack canonical positive
    obtain ⟨y, unpacked'⟩ := exists_unpack canonical' positive'
    have read := ofDecimal_positionalChars unpacked rounds
    rw [ofDecimal_positionalChars unpacked' rounds'] at read
    rw [← read, unpacked'] at unpacked
    obtain ⟨-, mantissas, exponents⟩ := UnpackedFloat.finite.inj unpacked
    exact ⟨mantissas.symm, exponents.symm⟩

end

-----------------------------------------------------------------------------------------
-- Numerals
-----------------------------------------------------------------------------------------

/-- Nothing, or a power of ten. -/
inductive IsPower : List Char → Int → Prop
  | nothing : IsPower [] 0
  | letter (power : Int) : IsPower (powerChars power) power

/-- Digits, with more digits behind a point or with a power of ten, and their value. -/
inductive IsNumeral : List Char → ℚ → Prop
  | intro {whole fraction tail power} (someDigits : whole ≠ [])
    (digits : ∀ c ∈ whole ++ fraction, c.isDigit = true) (powered : IsPower tail power)
    (marked : fraction ≠ [] ∨ tail ≠ [])
    : IsNumeral (pointed whole fraction ++ tail)
        (digitsValue (whole ++ fraction) * 10 ^ (power - fraction.length))

theorem IsPower.endsDigits {tail : List Char} {power : Int} (powered : IsPower tail power)
    : EndsDigits tail := by
  cases powered with
  | nothing => exact .nil
  | letter => exact .cons (by decide)

/-- A power of ten is told by its sign and its digits. -/
theorem powerChars_injective : Function.Injective powerChars := by
  intro power power' same
  have signs := (List.cons.inj (List.cons.inj same).2).1
  have digits := (List.cons.inj (List.cons.inj same).2).2
  have size := congrArg digitsValue digits
  rw [digitsValue_paddedDigits, digitsValue_paddedDigits] at size
  split at signs <;> split at signs
  · omega
  · contradiction
  · contradiction
  · omega

theorem IsPower.unique {tail : List Char} {power power' : Int} (powered : IsPower tail power)
    (powered' : IsPower tail power')
    : power = power' := by
  cases powered with
  | nothing =>
      cases powered' with
      | nothing => rfl
  | letter power =>
      generalize written : powerChars power = tail at powered'
      cases powered' with
      | nothing => contradiction
      | letter power' => exact powerChars_injective written

/-- A point and the digits behind it are told apart from a power of ten. -/
theorem fraction_append_inj {fraction fraction' tail tail' : List Char} {power power' : Int}
    (digits : ∀ c ∈ fraction, c.isDigit = true) (digits' : ∀ c ∈ fraction', c.isDigit = true)
    (powered : IsPower tail power) (powered' : IsPower tail' power')
    (same : (if fraction = [] then [] else '.' :: fraction) ++ tail
      = (if fraction' = [] then [] else '.' :: fraction') ++ tail')
    : fraction = fraction' ∧ tail = tail' := by
  have other : ∀ {tail power} rest, IsPower tail power → tail ≠ '.' :: rest := by
    intro tail power rest powered
    cases powered <;> simp [powerChars]
  split at same
  next none =>
    split at same
    next none' => exact ⟨none.trans none'.symm, same⟩
    next => exact absurd same (other _ powered)
  next =>
    split at same
    next => exact absurd same.symm (other _ powered')
    next =>
      exact run_append_inj digits digits' powered.endsDigits powered'.endsDigits
        (List.cons.inj same).2

/-- A numeral has one value. -/
theorem IsNumeral.unique {cs : List Char} {value value' : ℚ} (numeral : IsNumeral cs value)
    (numeral' : IsNumeral cs value')
    : value = value' := by
  obtain @⟨whole, fraction, tail, power, -, digits, powered, -⟩ := numeral
  generalize written : pointed whole fraction ++ tail = cs at numeral'
  obtain @⟨whole', fraction', tail', power', -, digits', powered', -⟩ := numeral'
  rw [List.forall_mem_append] at digits digits'
  have behind : ∀ {fraction tail power}, IsPower tail power →
      EndsDigits ((if fraction = [] then [] else '.' :: fraction) ++ tail) := by
    intro fraction tail power powered
    split
    next => exact powered.endsDigits
    next => exact .cons (by decide)
  unfold pointed at written
  rw [List.append_assoc, List.append_assoc] at written
  obtain ⟨rfl, rests⟩ := run_append_inj digits.1 digits'.1 (behind powered) (behind powered')
    written
  obtain ⟨rfl, rfl⟩ := fraction_append_inj digits.2 digits'.2 powered powered' rests
  rw [powered.unique powered']

/-- A numeral begins with a digit. -/
theorem IsNumeral.head {cs : List Char} {value : ℚ} (numeral : IsNumeral cs value)
    : ∃ first rest, cs = first :: rest ∧ first.isDigit = true := by
  obtain ⟨someDigits, digits, -, -⟩ := numeral
  obtain ⟨first, rest, rfl⟩ := List.exists_cons_of_ne_nil someDigits
  exact ⟨first, _, rfl, digits first List.mem_cons_self⟩

/-- A numeral has a point or the letter of a power of ten. -/
theorem IsNumeral.exists_mark {cs : List Char} {value : ℚ} (numeral : IsNumeral cs value)
    : ∃ c ∈ cs, c = '.' ∨ c = 'e' := by
  obtain ⟨-, -, powered, marked⟩ := numeral
  rcases marked with marked | marked
  · refine ⟨'.', List.mem_append_left _ (List.mem_append_right _ ?_), .inl rfl⟩
    rw [if_neg marked]
    exact List.mem_cons_self
  · cases powered with
    | nothing => contradiction
    | letter => exact ⟨'e', List.mem_append_right _ List.mem_cons_self, .inr rfl⟩

/-- The characters of numerals. -/
theorem IsNumeral.mem {cs : List Char} {value : ℚ} (numeral : IsNumeral cs value) {c : Char}
    (member : c ∈ cs)
    : c.isDigit = true ∨ c = '.' ∨ c = 'e' ∨ c = '-' ∨ c = '+' := by
  obtain ⟨someDigits, digits, powered, -⟩ := numeral
  rcases List.mem_append.mp member with member | member
  · rcases IsPositional.mem (.intro someDigits digits) member with digit | point
    · exact .inl digit
    · exact .inr (.inl point)
  · cases powered with
    | nothing => contradiction
    | letter power =>
        rcases List.mem_cons.mp member with letter | member
        · exact .inr (.inr (.inl letter))
        rcases List.mem_cons.mp member with sign | member
        · split at sign
          next => exact .inr (.inr (.inr (.inl sign)))
          next => exact .inr (.inr (.inr (.inr sign)))
        · exact .inl (isDigit_of_mem_paddedDigits member)

-----------------------------------------------------------------------------------------
-- Sizes in data
-----------------------------------------------------------------------------------------

/-- Digits with a power of ten for the first of them. -/
theorem isNumeral_scientificChars {cs : List Char} (some : cs ≠ [])
    (digits : ∀ c ∈ cs, c.isDigit = true) (exponent : Int)
    : IsNumeral (scientificChars cs (exponent + cs.length - 1))
        (digitsValue cs * 10 ^ exponent) := by
  obtain ⟨first, rest, rfl⟩ := List.exists_cons_of_ne_nil some
  have power : exponent + (first :: rest).length - 1 - rest.length = exponent := by
    rw [List.length_cons]
    push_cast
    ring
  generalize exponent + (first :: rest).length - 1 = top at power ⊢
  have written : scientificChars (first :: rest) top = pointed [first] rest ++ powerChars top := by
    cases rest <;> simp [scientificChars, pointed]
  rw [written, ← power]
  exact .intro (List.cons_ne_nil _ _) digits (.letter top) (.inr (List.cons_ne_nil _ _))

/-- Digits with a point and a zero. -/
theorem isNumeral_point_zero {whole : List Char} (some : whole ≠ [])
    (digits : ∀ c ∈ whole, c.isDigit = true)
    : IsNumeral (whole ++ ['.', '0']) (digitsValue whole) := by
  have zero : ∀ c ∈ ['0'], c.isDigit = true := by
    intro c member
    rw [List.mem_singleton.mp member]
    rfl
  have numeral := IsNumeral.intro some (List.forall_mem_append.mpr ⟨digits, zero⟩) .nothing
    (.inl (List.cons_ne_nil _ _))
  have longer : digitsValue (whole ++ ['0']) = 10 * digitsValue whole := by
    simp [digitsValue, List.foldl_append]
  have value : ((10 * digitsValue whole : Nat) : ℚ) * 10 ^ ((0 : Int) - (['0'].length : Nat))
      = digitsValue whole := by
    norm_num
    ring
  rwa [longer, value, pointed, if_neg (List.cons_ne_nil _ _), List.append_nil] at numeral

/-- The size of a double in data is a numeral with the value of the shortest decimal. -/
theorem isNumeral_dataChars (mantissa : Nat) (exponent : Int)
    : IsNumeral (dataChars mantissa exponent) (shortest mantissa exponent).value := by
  unfold dataChars Decimal.value
  generalize shortest mantissa exponent = decimal
  obtain ⟨digits, exponent⟩ := decimal
  dsimp only
  split
  next =>
    have numeral := isNumeral_scientificChars (digitChars_ne_nil digits)
      (fun c => isDigit_of_mem_digitChars) exponent
    rwa [digitsValue_digitChars] at numeral
  next =>
    obtain ⟨whole, fraction, someDigits, within, written, value⟩ :=
      positionalChars_eq digits exponent
    rw [written, ← value]
    rcases eq_or_ne fraction [] with rfl | some
    · rw [List.append_nil] at within
      have plain : pointed whole [] = whole := by rw [pointed, if_pos rfl, List.append_nil]
      have noPoint : ¬ whole.contains '.' = true := by
        rw [List.contains_iff_mem]
        intro point
        have digit := within '.' point
        contradiction
      have exact : (10 : ℚ) ^ (-(([] : List Char).length : Int)) = 1 := by simp
      rw [plain, if_neg noPoint, List.append_nil, exact, mul_one]
      exact isNumeral_point_zero someDigits within
    · have point : (pointed whole fraction).contains '.' = true := by
        rw [List.contains_iff_mem, pointed, if_neg some]
        exact List.mem_append_right _ List.mem_cons_self
      have numeral := IsNumeral.intro someDigits within .nothing (.inl some)
      rw [if_pos point]
      rwa [List.append_nil, zero_sub] at numeral

/-- A size is told by its text in data. -/
theorem eq_of_dataChars_eq {mantissa mantissa' : Nat} {exponent exponent' : Int}
    (canonical : IsCanonical mantissa exponent) (canonical' : IsCanonical mantissa' exponent')
    (same : dataChars mantissa exponent = dataChars mantissa' exponent')
    : mantissa = mantissa' ∧ exponent = exponent' := by
  refine eq_of_value_shortest_eq canonical canonical' ?_
  refine (isNumeral_dataChars mantissa exponent).unique ?_
  rw [same]
  exact isNumeral_dataChars mantissa' exponent'

end Wavetable.Number
