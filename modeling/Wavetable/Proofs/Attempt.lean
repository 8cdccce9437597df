/-!
Attempts that may fail with an error, taken apart: an attempt in several steps succeeds exactly
where all of its steps do.
-/

namespace Wavetable

section
variable {ε α β : Type}

theorem bind_eq_ok {attempt : Except ε α} {next : α → Except ε β} {result : β}
    : (attempt >>= next) = .ok result ↔ ∃ x, attempt = .ok x ∧ next x = .ok result := by
  cases attempt <;> simp [bind, Except.bind]

theorem pure_eq_ok {x result : α} : (pure x : Except ε α) = .ok result ↔ x = result := by
  simp [pure, Except.pure]

theorem throw_ne_ok {error : ε} {result : α} : (throw error : Except ε α) ≠ .ok result := by
  simp [throw, throwThe, MonadExceptOf.throw]

end

end Wavetable
