import Wavetable.Proofs.Formula.Dependence
import Wavetable.Proofs.Grid.Pass

/-!
The two ways to apply a formula. A formula without the place of the frame has the same values in a
pass over all frames as in a pass over one frame, so the passes write the same samples.
-/

namespace Wavetable.Grid

open Formula

section
variable {pass : Pass} {tree : Expr} {y z y' z' : Float}

/-- Samples in which the formula has the same values pairwise give the same list of values, or the
same first failure, by induction on the pairs.
-/
theorem evaluateSlots_eq {evaluator : Evaluator} {places places' : List Slot}
    (same : List.Forall₂
      (fun slot slot' => evaluator.value (slot.context y z) tree
        = evaluator.value (slot'.context y' z') tree)
      places places')
    : evaluateSlots evaluator tree y z places = evaluateSlots evaluator tree y' z' places' := by
  induction same with
  | nil => rfl
  | cons first _ ih => rw [evaluateSlots, evaluateSlots, first, ih]

/-- A frame has the same values at any place and beside any selected frame, where the formula has
no names for these.
-/
theorem evaluateFrame_eq {frame selected selected' : List Float}
    (noY : "y" ∉ tree.variableNames) (noZ : "z" ∉ tree.variableNames)
    (chosen : "sel" ∈ tree.variableNames → selected = selected')
    (framed : selected.length = frame.length) (framed' : selected'.length = frame.length)
    : evaluateFrame pass tree y z frame selected
      = evaluateFrame pass tree y' z' frame selected' := by
  apply evaluateSlots_eq
  have counted : (slots pass.seed frame selected).length = frame.length :=
    length_slots rfl framed
  have counted' : (slots pass.seed frame selected').length = frame.length :=
    length_slots rfl framed'
  rw [List.forall₂_iff_get]
  refine ⟨counted.trans counted'.symm, fun i inside inside' => ?_⟩
  obtain ⟨old, sel, rand, before, choice, drawn, slot⟩ :=
    slots_getElem? pass.seed rfl framed (inside.trans_eq counted)
  obtain ⟨old', sel', rand', before', choice', drawn', slot'⟩ :=
    slots_getElem? pass.seed rfl framed' (inside'.trans_eq counted')
  obtain rfl : old = old' := Option.some.inj (before.symm.trans before')
  obtain rfl : rand = rand' := Option.some.inj (drawn.symm.trans drawn')
  rw [List.getElem?_eq_getElem inside] at slot
  rw [List.getElem?_eq_getElem inside'] at slot'
  rw [List.get_eq_getElem, List.get_eq_getElem, Option.some.inj slot, Option.some.inj slot']
  apply value_eq_of_agree
  constructor
  case y => intro member; exact absurd member noY
  case z => intro member; exact absurd member noZ
  case selected =>
    intro member
    rw [chosen member] at choice
    exact Option.some.inj (choice.symm.trans choice')
  all_goals exact fun _ => rfl

variable {grid : Grid}

/-- A frame of the given length passes its check. -/
theorem checkFrame_of_length {s n : Nat} {frame : List Float}
    (found : grid.frames[s]? = some frame) (framed : frame.length = n) (positive : 1 ≤ n)
    : checkFrame grid s n = .ok (s, frame) := by
  obtain ⟨inside, here⟩ := List.getElem?_eq_some_iff.mp found
  have selection : checkSelection grid s n = .ok (s, n) := by
    have within : ¬ ((s : Int) < 0 ∨ (grid.frameCount : Int) ≤ s) := by
      simp only [frameCount]
      omega
    have some : ¬ (n : Int) ≤ 0 := by omega
    rw [checkSelection, if_neg within, if_neg some, Int.toNat_natCast, Int.toNat_natCast]
  rw [checkFrame, selection]
  simp [bind, Except.bind, pure, Except.pure, inside, here, framed]

/-- A pass over one frame writes the values of the formula at the place zero. -/
theorem reportSingle_of_values {formula : Compiled} {s n : Nat} {frame xs : List Float}
    (found : grid.frames[s]? = some frame) (framed : frame.length = n) (positive : 1 ≤ n)
    (evaluated : evaluateFrame pass formula.tree 0.0 0.0 frame frame = .ok xs)
    : (reportSingle pass formula grid s n).result = .ok none
      ∧ (reportSingle pass formula grid s n).grid.frames[s]?
        = some (written pass grid.storage xs) := by
  obtain ⟨inside, -⟩ := List.getElem?_eq_some_iff.mp found
  have applied : applySingle pass formula.tree grid s n
      = .ok { grid with frames := grid.frames.set s (written pass grid.storage xs) } := by
    rw [applySingle, checkFrame_of_length found framed positive]
    simp [bind, Except.bind, pure, Except.pure, evaluated]
  rw [reportSingle, applied]
  exact ⟨rfl, List.getElem?_set_self inside⟩

/-- A pass over all frames writes the values of the formula at the place of each, beside the
selected one, and all frames have the given length.
-/
theorem reportMulti_values {formula : Compiled} {check : CancelCheck} {selected count : Int}
    {new : Option Grid}
    (succeeded : (reportMulti pass formula check grid selected count).result = .ok new)
    : ∃ (s n : Nat) (chosen : List Float),
        selected = s ∧ grid.frames[s]? = some chosen ∧ count = n ∧ 1 ≤ n
        ∧ (∀ frame ∈ grid.frames, frame.length = n)
        ∧ ∀ (t : Nat) (frame : List Float), grid.frames[t]? = some frame
          → ∃ y z xs, evaluateFrame pass formula.tree y z frame chosen = .ok xs
            ∧ (reportMulti pass formula check grid selected count).grid.frames[t]?
              = some (written pass grid.storage xs) := by
  unfold reportMulti at succeeded ⊢
  split at succeeded
  next after asked applied =>
    unfold applyMulti at applied
    split at applied
    · simp at applied
    next chosen passed =>
      obtain ⟨s, n, rfl, found, rfl, positive, uniform⟩ := checkFrames_ok passed
      split at applied
      · simp at applied
      next results begun evaluated =>
        obtain ⟨rfl, -⟩ := (Prod.mk.inj applied).imp_left Except.ok.inj
        refine ⟨s, n, chosen, rfl, found, rfl, positive, uniform, fun t frame here => ?_⟩
        obtain ⟨xs, values, result⟩ := (evaluateFrames_getElem? evaluated).2 t frame here
        exact ⟨_, _, xs, values, by simp [result]⟩
  next => contradiction

end

/-- Where a formula for a single frame was applied to all frames of a grid, it can be applied to the
selected frame as well, and that frame comes out the same. If the formula does not name the selected
frame either, each frame comes out as if the formula were applied to that frame alone.
-/
theorem strategies_agree {source : String} {formula : Compiled}
    (accepted : compile source = .ok formula) (single : formula.mode = .singleFrame)
    (pass : Pass) (check : CancelCheck) (grid : Grid) (selected count : Int)
    (succeeded : ∃ new, (reportMulti pass formula check grid selected count).result = .ok new)
    : let all := (reportMulti pass formula check grid selected count).grid
      (∃ s : Nat, selected = s ∧ s < grid.frameCount
        ∧ (reportSingle pass formula grid s count).result = .ok none
        ∧ ∃ frame, all.frames[s]? = some frame
          ∧ (reportSingle pass formula grid s count).grid.frames[s]? = some frame)
      ∧ ("sel" ∉ formula.tree.variableNames
        → ∀ t < grid.frameCount,
            (reportSingle pass formula grid t count).result = .ok none
            ∧ ∃ frame, all.frames[t]? = some frame
              ∧ (reportSingle pass formula grid t count).grid.frames[t]? = some frame) := by
  intro all
  obtain ⟨new, succeeded⟩ := succeeded
  obtain ⟨noY, noZ⟩ := not_mem_variableNames_of_mode accepted single
  obtain ⟨s, n, chosen, rfl, found, rfl, positive, uniform, values⟩ :=
    reportMulti_values succeeded
  have length : chosen.length = n := uniform chosen (List.mem_of_getElem? found)
  -- a frame that the formula sees as it sees the selected one
  have agree : ∀ (t : Nat) (frame : List Float), grid.frames[t]? = some frame
      → ("sel" ∈ formula.tree.variableNames → chosen = frame)
      → (reportSingle pass formula grid t n).result = .ok none
        ∧ ∃ frame', all.frames[t]? = some frame'
          ∧ (reportSingle pass formula grid t n).grid.frames[t]? = some frame' := by
    intro t frame here seen
    obtain ⟨y, z, xs, evaluated, result⟩ := values t frame here
    have framed : frame.length = n := uniform frame (List.mem_of_getElem? here)
    rw [evaluateFrame_eq noY noZ seen (length.trans framed.symm) rfl] at evaluated
    obtain ⟨applied, replaced⟩ := reportSingle_of_values here framed positive evaluated
    exact ⟨applied, _, result, replaced⟩
  constructor
  · obtain ⟨inside, -⟩ := List.getElem?_eq_some_iff.mp found
    exact ⟨s, rfl, inside, agree s chosen found fun _ => rfl⟩
  · intro unused t inside
    exact agree t _ (List.getElem?_eq_getElem inside) fun member => absurd member unused

/-- Two frames in single precision are scaled along the frame in one pass, and the first one alone
comes out the same, although the second one is selected.
-/
theorem strategies_agree_scaled
    : let formula := Compiled.ofTree "in * w" (.binary .multiply (.var "in") (.var "w"))
      let pass := Pass.ofSettings .default
      let grid := Grid.ofFrames .singles [[0.1, 0.25], [0.3, 0.75]]
      compile "in * w" = .ok formula
      ∧ formula.mode = .singleFrame
      ∧ (reportMulti pass formula none grid 1 2).result = .ok none
      ∧ "sel" ∉ formula.tree.variableNames
      ∧ ∃ frame, (reportMulti pass formula none grid 1 2).grid.frames[0]? = some frame
        ∧ (reportSingle pass formula grid 0 2).grid.frames[0]? = some frame := by
  intro formula pass grid
  have accepted : compile "in * w" = .ok formula := rfl
  have names : formula.tree.variableNames = ["in", "w"] := by decide +kernel
  have single : formula.mode = .singleFrame := by
    apply mode_ofTree_iff.mpr
    change "y" ∉ formula.tree.variableNames ∧ "z" ∉ formula.tree.variableNames
    rw [names]
    decide
  have unused : "sel" ∉ formula.tree.variableNames := by
    rw [names]
    decide
  have succeeded : (reportMulti pass formula none grid 1 2).result = .ok none := rfl
  have agree := strategies_agree accepted single pass none grid 1 2 ⟨none, succeeded⟩
  exact ⟨accepted, single, succeeded, unused, (agree.2 unused 0 (by decide)).2⟩

end Wavetable.Grid
