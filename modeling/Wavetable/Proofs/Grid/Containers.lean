import Wavetable.Proofs.Grid.Strategies
import Wavetable.Proofs.Settings.Ceiling

/-!
Lists of samples and blocks of doubles. A formula that is applied to the same samples comes to the
same end in both, except where a new table is made: a block has no room for a negative number of
samples, which lists do not mind at first, and takes a single frame that is asked for by a double.
-/

namespace Wavetable.Grid

open Formula

/-- The same samples in a block of doubles. -/
def inBlock (grid : Grid) : Grid :=
  { grid with storage := .doubles }

/-- What a report on lists says of a block. -/
def Report.inBlock (report : Report) : Report where
  result := report.result.map (Option.map Grid.inBlock)
  grid := report.grid.inBlock
  polls := report.polls

/-- A table is made for the formula, as the grid has too few frames for it. -/
def MakesTable (formula : Compiled) (frames : List (List Float)) : Prop :=
  formula.mode = .multiFrame ∧ frames.length ≤ 1

/-- The number of frames is one, and is given as a double. -/
def IsRealOne (frameCount : Settings.Numeric) : Prop :=
  frameCount.whole? = none ∧ frameCount.same (.whole 1) = true

instance (frameCount : Settings.Numeric) : Decidable (IsRealOne frameCount) :=
  inferInstanceAs (Decidable (_ ∧ _))

section
variable {pass : Pass} {tree : Expr} {formula : Compiled} {check : CancelCheck}
  {frames : List (List Float)} {selected count : Int} {frameCount : Settings.Numeric}

theorem applySingle_inBlock
    : applySingle pass tree ⟨.doubles, frames⟩ selected count
      = (applySingle pass tree ⟨.lists, frames⟩ selected count).map inBlock := by
  have checked : checkFrame ⟨.doubles, frames⟩ selected count
      = checkFrame ⟨.lists, frames⟩ selected count := rfl
  rw [applySingle, applySingle, checked]
  cases checkFrame ⟨.lists, frames⟩ selected count with
  | error error => rfl
  | ok chosen =>
      obtain ⟨index, frame⟩ := chosen
      simp only [bind, Except.bind]
      cases evaluateFrame pass tree 0.0 0.0 frame frame <;> rfl

theorem applyMulti_inBlock
    : applyMulti pass tree check ⟨.doubles, frames⟩ selected count
      = (applyMulti pass tree check ⟨.lists, frames⟩ selected count).map (.map inBlock) id := by
  have checked : checkFrames ⟨.doubles, frames⟩ selected count
      = checkFrames ⟨.lists, frames⟩ selected count := rfl
  rw [applyMulti, applyMulti, checked]
  cases checkFrames ⟨.lists, frames⟩ selected count with
  | error error => rfl
  | ok chosen =>
      dsimp only [Grid.frameCount]
      rcases evaluateFrames pass tree check frames.length chosen 0 frames with ⟨_ | _, _⟩ <;> rfl

theorem reportSingle_inBlock
    : reportSingle pass formula ⟨.doubles, frames⟩ selected count
      = (reportSingle pass formula ⟨.lists, frames⟩ selected count).inBlock := by
  rw [reportSingle, reportSingle, applySingle_inBlock]
  cases applySingle pass formula.tree ⟨.lists, frames⟩ selected count <;> rfl

theorem reportMulti_inBlock
    : reportMulti pass formula check ⟨.doubles, frames⟩ selected count
      = (reportMulti pass formula check ⟨.lists, frames⟩ selected count).inBlock := by
  rw [reportMulti, reportMulti, applyMulti_inBlock]
  rcases applyMulti pass formula.tree check ⟨.lists, frames⟩ selected count with ⟨_ | _, _⟩ <;> rfl

theorem needsExpansion_iff {storage : Storage}
    : needsExpansion ⟨storage, frames⟩ = true ↔ frames.length ≤ 1 :=
  decide_eq_true_iff

/-- A new table has the same frames in both, where there is room for them. -/
theorem expand_inBlock (room : ¬ (frames = [] ∧ count < 0)) (given : ¬ IsRealOne frameCount)
    : expand ⟨.doubles, frames⟩ count frameCount
      = (expand ⟨.lists, frames⟩ count frameCount).map inBlock := by
  have size : tableSize? .doubles frameCount = tableSize? .lists frameCount := by
    unfold tableSize?
    cases whole : frameCount.whole? with
    | some n => rfl
    | none =>
        have other : ¬ frameCount.same (.whole 1) = true := fun one => given ⟨whole, one⟩
        simp [other]
  have inside : ¬ (Storage.doubles.isBlock = true ∧ frames.isEmpty = true ∧ count < 0) := by
    simpa [Storage.isBlock] using room
  rw [expand, expand, if_neg inside, size]
  cases tableSize? .lists frameCount <;> rfl

theorem reportTable_inBlock
    (alike : frames.length ≤ 1 → ¬ (frames = [] ∧ count < 0) ∧ ¬ IsRealOne frameCount)
    : reportTable pass frameCount formula check ⟨.doubles, frames⟩ selected count
      = (reportTable pass frameCount formula check ⟨.lists, frames⟩ selected count).inBlock := by
  unfold reportTable
  by_cases few : frames.length ≤ 1
  · obtain ⟨room, given⟩ := alike few
    rw [if_pos (needsExpansion_iff.mpr few), if_pos (needsExpansion_iff.mpr few),
      expand_inBlock room given]
    cases made : expand ⟨.lists, frames⟩ count frameCount with
    | error error => rfl
    | ok table =>
        obtain ⟨storage, frames'⟩ := table
        obtain rfl : storage = .lists := storage_of_expand made
        have applied
            : applyMulti pass formula.tree check (inBlock ⟨.lists, frames'⟩)
                (nearestIndex (inBlock ⟨.lists, frames'⟩) selected) count
              = (applyMulti pass formula.tree check ⟨.lists, frames'⟩
                  (nearestIndex ⟨.lists, frames'⟩ selected) count).map (.map inBlock) id :=
          applyMulti_inBlock
        simp only [Except.map, applied]
        rcases applyMulti pass formula.tree check ⟨.lists, frames'⟩
          (nearestIndex ⟨.lists, frames'⟩ selected) count with ⟨_ | _, _⟩ <;> rfl
  · rw [if_neg (few ∘ needsExpansion_iff.mp), if_neg (few ∘ needsExpansion_iff.mp)]
    exact reportMulti_inBlock

/-- Where there is a frame to select, the nearest index has one. -/
theorem nearestIndex_inside {grid : Grid} (selected : Int) (some : 0 < grid.frameCount)
    : 0 ≤ nearestIndex grid selected ∧ nearestIndex grid selected < grid.frameCount := by
  unfold nearestIndex
  omega

/-- Where there is a frame to select, a count of samples that is not positive is what is refused. -/
theorem checkSelection_nearestIndex {grid : Grid} (selected : Int) (some : 0 < grid.frameCount)
    (nothing : count ≤ 0)
    : checkSelection grid (nearestIndex grid selected) count = .error (.invalidCount count) := by
  have inside := nearestIndex_inside selected some
  rw [checkSelection, if_neg (by omega), if_pos nothing]

/-- A block has no room for a negative number of silent samples; lists are asked for that many only
when the formula is applied to them.
-/
theorem reportTable_negative_count (positive : ∀ n, frameCount.whole? = some n → 0 < n)
    (negative : count < 0)
    : reportTable pass frameCount formula check ⟨.doubles, []⟩ selected count
        = ⟨.error .negativeSize, ⟨.doubles, []⟩, 0⟩
      ∧ reportTable pass frameCount formula check ⟨.lists, []⟩ selected count
        = ⟨.error (if frameCount.whole?.isSome then .invalidCount count else .fractionalFrames),
          ⟨.lists, []⟩, 0⟩ := by
  constructor
  · simp [reportTable, needsExpansion, Grid.frameCount, expand, Storage.isBlock, negative]
  · cases whole : frameCount.whole? with
    | none =>
        simp [reportTable, needsExpansion, Grid.frameCount, expand, tableSize?, Storage.isBlock,
          whole]
    | some n =>
        have nothing : count ≤ 0 := Int.le_of_lt negative
        have made : expand ⟨.lists, []⟩ count frameCount
            = .ok ⟨.lists, List.replicate n.toNat (List.replicate count.toNat 0.0)⟩ := by
          simp [expand, tableSize?, Storage.isBlock, whole]
        have framed : 0 < (List.replicate n.toNat (List.replicate count.toNat 0.0)).length := by
          have := positive n whole
          rw [List.length_replicate]
          omega
        have checked := checkSelection_nearestIndex selected
          (show 0 < (Grid.mk .lists _).frameCount from framed) nothing
        simp [reportTable, needsExpansion, Grid.frameCount, made, applyMulti, checkFrames, checked,
          bind, Except.bind]

/-- A single frame that is asked for by a double is taken by a block as if it were asked for by a
whole number, and refused by lists.
-/
theorem reportTable_real_one (one : IsRealOne frameCount) (few : frames.length ≤ 1)
    (room : ¬ (frames = [] ∧ count < 0))
    : reportTable pass frameCount formula check ⟨.doubles, frames⟩ selected count
        = reportTable pass (.whole 1) formula check ⟨.doubles, frames⟩ selected count
      ∧ reportTable pass frameCount formula check ⟨.lists, frames⟩ selected count
        = ⟨.error .fractionalFrames, ⟨.lists, frames⟩, 0⟩ := by
  obtain ⟨double, same⟩ := one
  have inside : ¬ (Storage.doubles.isBlock = true ∧ frames.isEmpty = true ∧ count < 0) := by
    simpa [Storage.isBlock] using room
  have made : expand ⟨.doubles, frames⟩ count frameCount
      = expand ⟨.doubles, frames⟩ count (.whole 1) := by
    have single : tableSize? .doubles frameCount = some 1 := by
      simp [tableSize?, double, same, Storage.isBlock]
    have whole : tableSize? .doubles (.whole 1) = some 1 := rfl
    rw [expand, expand, if_neg inside, if_neg inside, single, whole]
  have refused : expand ⟨.lists, frames⟩ count frameCount = .error .fractionalFrames := by
    simp [expand, tableSize?, double, Storage.isBlock]
  constructor
  · rw [reportTable, reportTable, made]
  · rw [reportTable, if_pos (needsExpansion_iff.mpr few), refused]

end

/-- A whole number of frames that was accepted is positive. -/
theorem positive_of_accepted {values : Json.Members} {settings : Settings}
    (accepted : Settings.ofMembers values = .ok settings)
    : ∀ n, settings.frameCount.whole? = some n → 0 < n := by
  intro n whole
  have passed := (Settings.ofMembers_accepted accepted).someFrames
  rw [Settings.Numeric.isAtMostZero_of_whole whole, decide_eq_false_iff_not, not_le] at passed
  exact passed

end Wavetable.Grid
