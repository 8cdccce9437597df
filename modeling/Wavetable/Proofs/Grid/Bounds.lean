import Wavetable.Proofs.Grid.Pass
import Wavetable.Proofs.Number.Singles
import Wavetable.Proofs.Settings.Exact

/-!
The bounds of samples. What a pass writes lies between the bounds of the settings as the grid holds
them, whatever the formula gives. A grid of single precision rounds the bounds too, so that a sample
can lie beyond a bound that such a grid cannot hold.
-/

namespace Wavetable.Grid

open Formula Number
open Settings (Numeric)

section
variable {low high x y : Float}

/-- What lies between finite doubles is finite. -/
theorem isFinite_between (finiteLow : low.isFinite = true) (finiteHigh : high.isFinite = true)
    (number : x.isNaN = false) (below : low ≤ x) (above : x ≤ high)
    : x.isFinite = true := by
  have lowNumber := isNaN_of_isFinite finiteLow
  have highNumber := isNaN_of_isFinite finiteHigh
  rw [le_iff_value lowNumber number] at below
  rw [le_iff_value number highNumber] at above
  have least := ((isFinite_iff lowNumber).mp finiteLow).1
  have most := ((isFinite_iff highNumber).mp finiteHigh).2
  exact (isFinite_iff number).mpr ⟨least.trans_le below, above.trans_lt most⟩

/-- What is limited lies between the bounds. -/
theorem limit_between (finiteLow : low.isFinite = true) (finiteHigh : high.isFinite = true)
    (ordered : low ≤ high) (number : x.isNaN = false)
    : (limit low high x).isFinite = true ∧ low ≤ limit low high x ∧ limit low high x ≤ high := by
  have lowNumber := isNaN_of_isFinite finiteLow
  have highNumber := isNaN_of_isFinite finiteHigh
  have reflexive : ∀ {z : Float}, z.isNaN = false → z ≤ z :=
    fun number => (le_iff_value number number).mpr le_rfl
  have total : ∀ {y z : Float}, y.isNaN = false → z.isNaN = false → ¬ y < z → z ≤ y := by
    intro y z number number' notBelow
    rw [lt_iff_value number number', not_lt] at notBelow
    exact (le_iff_value number' number).mpr notBelow
  unfold limit
  by_cases below : x < low
  · have notAbove : ¬ low > high := by
      rw [gt_iff_lt, lt_iff_value highNumber lowNumber, not_lt]
      exact (le_iff_value lowNumber highNumber).mp ordered
    rw [if_pos below, if_neg notAbove]
    exact ⟨finiteLow, reflexive lowNumber, ordered⟩
  · rw [if_neg below]
    by_cases above : x > high
    · rw [if_pos above]
      exact ⟨finiteHigh, ordered, reflexive highNumber⟩
    · rw [if_neg above]
      have between := total number lowNumber below
      have between' := total highNumber number above
      exact ⟨isFinite_between finiteLow finiteHigh number between between', between, between'⟩

/-- The sample of any number lies between the bounds. -/
theorem clamp_between (finiteLow : low.isFinite = true) (finiteHigh : high.isFinite = true)
    (ordered : low ≤ high) (v : Float)
    : (clamp low high v).isFinite = true ∧ low ≤ clamp low high v ∧ clamp low high v ≤ high := by
  have number : (if v.isNaN then 0.0 else v).isNaN = false := by
    cases isNumber : v.isNaN with
    | true =>
        rw [if_pos rfl]
        decide
    | false => simpa using isNumber
  rw [clamp_eq_limit finiteLow finiteHigh]
  exact limit_between finiteLow finiteHigh ordered number

/-- A storage keeps the order of what it holds. -/
theorem hold_mono (storage : Storage) (finite : x.isFinite = true) (finite' : y.isFinite = true)
    (below : x ≤ y)
    : storage.hold x ≤ storage.hold y := by
  cases storage with
  | lists | doubles => exact below
  | singles => exact toSingle_mono finite finite' below

theorem isNaN_hold (storage : Storage) (finite : x.isFinite = true)
    : (storage.hold x).isNaN = false := by
  cases storage with
  | lists | doubles => exact isNaN_of_isFinite finite
  | singles => exact (roundsSigned_toSingle finite).2

end

/-- A storage holds a bound as it is. -/
def HoldsBound (storage : Storage) (bound : Numeric) : Prop :=
  (Numeric.real (storage.hold bound.toFloat)).same bound = true

/-- A sample is finite and lies within the bounds of the settings by their exact values. -/
structure WithinBounds (settings : Settings) (x : Float) : Prop where
  finite : x.isFinite = true
  low : settings.clampLow.above (.real x) = false
  high : (Numeric.real x).above settings.clampHigh = false

/-- A sample lies between the bounds of the settings as a storage holds them, and within the bounds
themselves if the storage can hold them.
-/
structure Bounded (settings : Settings) (storage : Storage) (x : Float) : Prop where
  low : storage.hold settings.clampLow.toFloat ≤ x
  high : x ≤ storage.hold settings.clampHigh.toFloat
  within
    : HoldsBound storage settings.clampLow
      → HoldsBound storage settings.clampHigh
      → WithinBounds settings x

/-- Every frame of a grid is bounded. -/
def AllBounded (settings : Settings) (storage : Storage) (after : Grid) : Prop :=
  ∀ frame ∈ after.frames, ∀ x ∈ frame, Bounded settings storage x

/-- The selected frame of a grid is bounded, and the others are as they were. -/
def SelectedBounded (settings : Settings) (selected : Int) (before after : Grid) : Prop :=
  ∃ s : Nat,
    selected = s
    ∧ (∃ frame, after.frames[s]? = some frame ∧ ∀ x ∈ frame, Bounded settings before.storage x)
    ∧ ∀ t, t ≠ s → after.frames[t]? = before.frames[t]?

/-- Lists and blocks of doubles hold every bound that is given as a double, and every whole number
of at most 53 bits.
-/
theorem holdsBound_of_short {storage : Storage} (exact : storage ≠ .singles) {bound : Numeric}
    (finite : bound.toFloat.isFinite = true)
    (short : ∀ n, bound.whole? = some n → n.natAbs < 2 ^ 53)
    : HoldsBound storage bound := by
  obtain ⟨nearest, found, same⟩ := Numeric.exactValue?_real finite
  have held : storage.hold bound.toFloat = bound.toFloat := by
    cases storage <;> first | rfl | contradiction
  unfold HoldsBound Numeric.same
  rw [held, found]
  cases given : bound.whole? with
  | some n =>
      obtain ⟨exact, found', same'⟩ := Numeric.exactValue?_whole given
      rw [Numeric.toFloat_of_whole given, (value_ofInt_of_lt (short n given)).2] at same
      rw [found']
      exact Numeric.Exact.same_iff.mpr (same.trans same'.symm)
  | none =>
      cases bound with
      | truth | whole => contradiction
      | real x =>
          rw [Numeric.toFloat] at found
          rw [found]
          exact Numeric.Exact.same_iff.mpr rfl

/-- A bound that is held as it is has the exact value of the double that is held. -/
theorem HoldsBound.exists_value {storage : Storage} {bound : Numeric}
    (finite : bound.toFloat.isFinite = true) (holds : HoldsBound storage bound)
    : ∃ exact,
        bound.exactValue? = some exact
        ∧ (storage.hold bound.toFloat).isFinite = true
        ∧ exact.value = value (storage.hold bound.toFloat) := by
  obtain ⟨exact, found, -⟩ := Numeric.exists_exactValue? finite
  unfold HoldsBound Numeric.same at holds
  cases held : (storage.hold bound.toFloat).isFinite with
  | false =>
      rw [Numeric.exactValue?_unbounded held, found] at holds
      contradiction
  | true =>
      obtain ⟨exact', found', same⟩ := Numeric.exactValue?_real held
      rw [found, found'] at holds
      exact ⟨exact, found, rfl, (Numeric.Exact.same_iff.mp holds).symm.trans same⟩

section
variable {values : Json.Members} {settings : Settings}

/-- What a pass writes for a number lies between the bounds, whatever the number is. -/
theorem bounded_clamp (accepted : Settings.ofMembers values = .ok settings) (storage : Storage)
    (v : Float)
    : Bounded settings storage
        (storage.hold (clamp settings.clampLow.toFloat settings.clampHigh.toFloat v)) := by
  have checked := Settings.ofMembers_accepted accepted
  have finiteLow := checked.finiteLow
  have finiteHigh := checked.finiteHigh
  obtain ⟨finite, above, below⟩ := clamp_between finiteLow finiteHigh checked.low_le_high v
  generalize clamp settings.clampLow.toFloat settings.clampHigh.toFloat v = x at *
  have lower := hold_mono storage finiteLow finite above
  have upper := hold_mono storage finite finiteHigh below
  refine ⟨lower, upper, fun holdsLow holdsHigh => ?_⟩
  obtain ⟨low, foundLow, heldLow, sameLow⟩ := holdsLow.exists_value finiteLow
  obtain ⟨high, foundHigh, heldHigh, sameHigh⟩ := holdsHigh.exists_value finiteHigh
  have number := isNaN_hold storage finite
  have held := isFinite_between heldLow heldHigh number lower upper
  obtain ⟨exact, found, same⟩ := Numeric.exactValue?_real held
  rw [le_iff_value (isNaN_of_isFinite heldLow) number, ← sameLow, ← same] at lower
  rw [le_iff_value number (isNaN_of_isFinite heldHigh), ← sameHigh, ← same] at upper
  refine ⟨held, ?_, ?_⟩
  · rw [Numeric.above, foundLow, found, Bool.eq_false_iff]
    exact fun less => not_lt.mpr lower (Numeric.Exact.below_iff.mp less)
  · rw [Numeric.above, foundHigh, found, Bool.eq_false_iff]
    exact fun less => not_lt.mpr upper (Numeric.Exact.below_iff.mp less)

theorem bounded_of_mem_written (accepted : Settings.ofMembers values = .ok settings)
    {evaluator : Evaluator} {storage : Storage} {results : List Float} {x : Float}
    (member : x ∈ written (passOf settings evaluator) storage results)
    : Bounded settings storage x := by
  obtain ⟨v, -, rfl⟩ := List.mem_map.mp member
  exact bounded_clamp accepted storage v

variable {evaluator : Evaluator} {tree : Expr} {grid after : Grid} {selected count : Int}

/-- The selected frame is bounded after a pass over it, and the others are as they were. -/
theorem applySingle_bounded (accepted : Settings.ofMembers values = .ok settings)
    (applied : applySingle (passOf settings evaluator) tree grid selected count = .ok after)
    : SelectedBounded settings selected grid after := by
  simp only [applySingle, bind_eq_ok, Prod.exists] at applied
  obtain ⟨s, frame, passed, applied⟩ := applied
  obtain ⟨rfl, found, -⟩ := checkFrame_ok passed
  have inside : s < grid.frames.length := (List.getElem?_eq_some_iff.mp found).1
  split at applied
  · exact absurd applied throw_ne_ok
  next results evaluated =>
    obtain rfl := pure_eq_ok.mp applied
    refine ⟨s, rfl, ⟨_, List.getElem?_set_self inside, fun x member => ?_⟩, fun t other => ?_⟩
    · exact bounded_of_mem_written accepted member
    · exact List.getElem?_set_ne other.symm

/-- All frames are bounded after a pass over all of them. -/
theorem applyMulti_bounded {check : CancelCheck} {asked : Nat}
    (accepted : Settings.ofMembers values = .ok settings)
    (applied : applyMulti (passOf settings evaluator) tree check grid selected count
      = (.ok after, asked))
    : AllBounded settings grid.storage after := by
  unfold applyMulti at applied
  split at applied
  · simp at applied
  next =>
    split at applied
    · simp at applied
    next results begun evaluated =>
      obtain ⟨rfl, -⟩ := (Prod.mk.inj applied).imp_left Except.ok.inj
      intro frame member x inside
      obtain ⟨xs, -, rfl⟩ := List.mem_map.mp member
      exact bounded_of_mem_written accepted inside

variable {formula : Compiled} {check : CancelCheck} {new : Option Grid}

theorem reportSingle_bounded (accepted : Settings.ofMembers values = .ok settings)
    (succeeded
      : (reportSingle (passOf settings evaluator) formula grid selected count).result = .ok new)
    : new = none
      ∧ SelectedBounded settings selected grid
        (reportSingle (passOf settings evaluator) formula grid selected count).grid := by
  unfold reportSingle at succeeded ⊢
  split at succeeded
  next after applied =>
    exact ⟨(Except.ok.inj succeeded).symm, applySingle_bounded accepted applied⟩
  next => contradiction

theorem reportMulti_bounded (accepted : Settings.ofMembers values = .ok settings)
    (succeeded
      : (reportMulti (passOf settings evaluator) formula check grid selected count).result
        = .ok new)
    : new = none
      ∧ AllBounded settings grid.storage
        (reportMulti (passOf settings evaluator) formula check grid selected count).grid := by
  unfold reportMulti at succeeded ⊢
  split at succeeded
  next after asked applied =>
    exact ⟨(Except.ok.inj succeeded).symm, applyMulti_bounded accepted applied⟩
  next => contradiction

/-- A table is bounded, whether it is a new one or the caller's. -/
theorem reportTable_bounded {frameCount : Numeric} {report : Report}
    (accepted : Settings.ofMembers values = .ok settings)
    (reported
      : reportTable (passOf settings evaluator) frameCount formula check grid selected count
        = report)
    (succeeded : report.result = .ok new)
    : AllBounded settings grid.storage (new.getD report.grid)
      ∧ (new.isSome = true → report.grid = grid) := by
  unfold reportTable at reported
  split at reported
  next few =>
    split at reported
    · subst reported
      contradiction
    next table made =>
      split at reported
      next written asked applied =>
        subst reported
        obtain rfl := Except.ok.inj succeeded
        exact ⟨storage_of_expand made ▸ applyMulti_bounded accepted applied, fun _ => rfl⟩
      next =>
        subst reported
        contradiction
  next =>
    subst reported
    obtain ⟨rfl, bounded⟩ := reportMulti_bounded accepted succeeded
    exact ⟨bounded, fun some => by contradiction⟩

end

/-- Whatever a formula gives, every sample that is rewritten lies between the bounds of the settings
as the grid holds them. If the grid can hold both bounds, then the sample is finite and within the
bounds themselves. Lists and blocks of doubles hold all bounds but whole numbers of more bits than
a double has.
-/
theorem rewritten_samples_bounded {values : Json.Members} {settings : Settings}
    (accepted : Settings.ofMembers values = .ok settings) (evaluator : Evaluator)
    (formula : Compiled) (check : CancelCheck) (grid : Grid) (selected count : Int)
    : let pass := passOf settings evaluator
      let single := reportSingle pass formula grid selected count
      let multi := reportMulti pass formula check grid selected count
      let byMode := apply pass settings.frameCount formula check grid selected count
      (∀ new, single.result = .ok new
        → new = none ∧ SelectedBounded settings selected grid single.grid)
      ∧ (∀ new, multi.result = .ok new
        → new = none ∧ AllBounded settings grid.storage multi.grid)
      ∧ (∀ new, byMode.result = .ok new
        → match formula.mode with
          | .singleFrame => new = none ∧ SelectedBounded settings selected grid byMode.grid
          | .multiFrame =>
              AllBounded settings grid.storage (new.getD byMode.grid)
              ∧ (new.isSome = true → byMode.grid = grid))
      ∧ ∀ bound ∈ [settings.clampLow, settings.clampHigh],
          grid.storage ≠ .singles
          → (∀ n, bound.whole? = some n → n.natAbs < 2 ^ 53)
          → HoldsBound grid.storage bound := by
  refine ⟨fun new => reportSingle_bounded accepted, fun new => reportMulti_bounded accepted,
    fun new succeeded => ?_, fun bound member exact short => ?_⟩
  · unfold apply at succeeded ⊢
    cases mode : formula.mode with
    | singleFrame =>
        rw [mode] at succeeded
        exact reportSingle_bounded accepted succeeded
    | multiFrame =>
        rw [mode] at succeeded
        exact reportTable_bounded accepted rfl succeeded
  · have checked := Settings.ofMembers_accepted accepted
    have finite : bound.toFloat.isFinite = true := by
      rcases List.mem_pair.mp member with rfl | rfl
      · exact Settings.isFinite_of_checkBound checked.lowBound
      · exact Settings.isFinite_of_checkBound checked.highBound
    exact holdsBound_of_short exact finite short

/-- Infinite values become samples within the usual bounds, which single precision can hold. -/
theorem rewritten_samples_bounded_infinite
    : let formula : Compiled :=
        .ofTree "1e300 * in" (.binary .multiply (.number 1e300) (.var "in"))
      let grid : Grid := ⟨.singles, [[1e30], [-1e30], [0.0]]⟩
      let report := reportMulti (passOf .default .default) formula none grid 0 1
      Settings.ofMembers [] = .ok .default
      ∧ report.result = .ok none
      ∧ report.grid.frames.length = 3
      ∧ ∀ frame ∈ report.grid.frames, ∀ x ∈ frame, WithinBounds .default x := by
  intro formula grid report
  have accepted : Settings.ofMembers [] = .ok .default := rfl
  have succeeded : report.result = .ok none := rfl
  have low : HoldsBound .singles Settings.default.clampLow := by
    unfold HoldsBound
    decide +kernel
  have high : HoldsBound .singles Settings.default.clampHigh := by
    unfold HoldsBound
    decide +kernel
  obtain ⟨-, bounded⟩ :=
    (rewritten_samples_bounded accepted .default formula none grid 0 1).2.1 none succeeded
  exact ⟨accepted, succeeded, rfl, fun frame member x inside =>
    (bounded frame member x inside).within low high⟩

/-- A sample exceeds an upper bound that is rounded upwards: one tenth in single precision, or a
whole number of 54 bits in lists. A bound that is too large for single precision becomes infinite.
-/
theorem sample_exceeds_bound
    : let formula : Compiled := .ofTree "1e39" (.number 1e39)
      let settings := fun bound => { Settings.default with clampHigh := bound }
      let report := fun bound storage =>
        reportSingle (passOf (settings bound) .default) formula ⟨storage, [[0.0]]⟩ 0 1
      let tenth : Numeric := .real 0.1
      let long : Numeric := .whole 9007199254740995
      let large : Numeric := .real 1e39
      (∀ bound ∈ [tenth, long, large],
        Settings.ofMembers [("clamp_max", bound.toJson)] = .ok (settings bound))
      ∧ (∃ x, (report tenth .singles).grid.frames = [[x]]
          ∧ (Numeric.real x).above tenth = true)
      ∧ (∃ x, (report long .lists).grid.frames = [[x]]
          ∧ (Numeric.real x).above long = true)
      ∧ ∃ x, (report large .singles).grid.frames = [[x]] ∧ x.isFinite = false := by
  intro formula settings report tenth long large
  refine ⟨?_, ⟨_, rfl, ?_⟩, ⟨_, rfl, ?_⟩, ⟨_, rfl, ?_⟩⟩
  · have passed : ∀ bound ∈ [tenth, long, large],
        bound.toFloat.isFinite = true ∧ Settings.default.clampLow.above bound = false := by
      decide +kernel
    intro bound member
    exact Settings.ofMembers_clampHigh (passed bound member).1 (passed bound member).2
  all_goals decide +kernel

end Wavetable.Grid
