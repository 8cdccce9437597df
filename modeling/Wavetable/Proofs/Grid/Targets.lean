import Wavetable.Grid.Heap
import Wavetable.Proofs.Grid.Containers
import Wavetable.Proofs.Grid.Atomic
import Wavetable.Proofs.Grid.Cancellation

/-!
Which grid a formula is written into. A grid with enough frames is written in place, and so is the
selected frame. Any other is left as it is, and the formula is applied to frames at new addresses.
-/

namespace Wavetable.Grid

open Formula

section
variable {held : Held} {frames frames' : List (List Float)}

/-- The frames of a grid stand among the given ones. -/
def Held.StandsIn (held : Held) (frames : List (List Float)) : Prop :=
  ∀ address ∈ held.addresses, address < frames.length

/-- A grid looks the same where its frames do. -/
theorem Held.grid_congr
    (same : ∀ address ∈ held.addresses, frames'[address]? = frames[address]?)
    : held.grid frames' = held.grid frames := by
  have looked : held.addresses.map (fun address => frames'.getD address [])
      = held.addresses.map fun address => frames.getD address [] :=
    List.map_congr_left fun address member => by simp [same address member]
  rw [Held.grid, Held.grid, looked]

/-- Frames at new addresses are found there. -/
theorem Held.grid_new (frames : List (List Float)) (table : Grid)
    : Held.grid ⟨table.storage, List.range' frames.length table.frames.length⟩
        (frames ++ table.frames) = table := by
  have looked : (List.range' frames.length table.frames.length).map
      (fun address => (frames ++ table.frames).getD address []) = table.frames := by
    refine List.ext_getElem (by simp) fun i inside inside' => ?_
    simp [inside']
  rw [Held.grid, looked]

/-- A frame that is written at an address of its own is one that is replaced in the grid. -/
theorem Held.grid_set {index address : Nat} {frame : List Float} (stands : held.StandsIn frames)
    (distinct : held.addresses.Nodup) (found : held.addresses[index]? = some address)
    : held.grid (frames.set address frame)
      = { held.grid frames with frames := (held.grid frames).frames.set index frame } := by
  obtain ⟨inside, here⟩ := List.getElem?_eq_some_iff.mp found
  have placed : address < frames.length := stands address (List.mem_of_getElem? found)
  have looked : held.addresses.map (fun address' => (frames.set address frame).getD address' [])
      = (held.addresses.map fun address' => frames.getD address' []).set index frame := by
    refine List.ext_getElem (by simp) fun i below below' => ?_
    have below : i < held.addresses.length := by simpa using below
    by_cases same : i = index
    · subst same
      simp [here, placed]
    · have apart : address ≠ held.addresses[i] := by
        intro equal
        exact same ((List.Nodup.getElem_inj_iff distinct).mp (here.trans equal)).symm
      simp [List.getElem?_set_ne apart, List.getElem_set_ne (Ne.symm same)]
  rw [Held.grid, looked]
  rfl

end

namespace Work

section
variable {α β : Type}

theorem run_bind (work : Work α) (next : α → Work β) (heap : Heap)
    : (work >>= next).run heap
      = match work.run heap with
        | (.ok x, behind) => (next x).run behind
        | (.error error, behind) => (.error error, behind) := by
  show (ExceptT.bindCont next (work.run heap).1 : Work β) (work.run heap).2 = _
  rcases work.run heap with ⟨_ | _, behind⟩ <;> rfl

@[simp]
theorem run_pure (x : α) (heap : Heap) : (pure x : Work α).run heap = (.ok x, heap) :=
  rfl

@[simp]
theorem run_snapshot (held : Held) (heap : Heap)
    : (snapshot held).run heap = (.ok (held.grid heap.frames), heap) :=
  rfl

@[simp]
theorem run_attempt (result : Except ApplyError α) (heap : Heap)
    : (attempt result).run heap = (result, heap) := by
  cases result <;> rfl

@[simp]
theorem run_onCopy (grid : Grid) (procedure : Procedure α) (heap : Heap)
    : (onCopy grid procedure).run heap
      = ((procedure.run ⟨grid, heap.polls⟩).1,
          ⟨heap.frames, (procedure.run ⟨grid, heap.polls⟩).2.polls⟩) :=
  rfl

@[simp]
theorem run_write (address : Nat) (frame : List Float) (heap : Heap)
    : (write address frame).run heap
      = (.ok (), ⟨heap.frames.set address frame, heap.polls⟩) :=
  rfl

@[simp]
theorem run_allocate (frame : List Float) (heap : Heap)
    : (allocate frame).run heap
      = (.ok heap.frames.length, ⟨heap.frames ++ [frame], heap.polls⟩) :=
  rfl

theorem run_writeAt {held : Held} {index address : Nat}
    (found : held.addresses[index]? = some address) (frame : List Float) (heap : Heap)
    : (writeAt held index frame).run heap
      = (.ok (), ⟨heap.frames.set address frame, heap.polls⟩) := by
  rw [writeAt, found]
  rfl

/-- Frames get the addresses behind those that there are, by induction on the frames. -/
theorem run_allocateAll (rows : List (List Float)) (heap : Heap)
    : (allocateAll rows).run heap
      = (.ok (List.range' heap.frames.length rows.length), ⟨heap.frames ++ rows, heap.polls⟩) := by
  induction rows generalizing heap with
  | nil => simp [allocateAll]
  | cons frame rest ih =>
      simp only [allocateAll, run_bind, run_allocate, ih, run_pure]
      simp [List.range'_succ]

/-- Frames that are written at distinct addresses are found there, and all others are as they were,
by induction on the addresses.
-/
theorem run_writeAll {addresses : List Nat} {rows : List (List Float)}
    (counted : rows.length = addresses.length) (heap : Heap)
    : ∃ after,
        (writeAll addresses rows).run heap = (.ok (), ⟨after, heap.polls⟩)
        ∧ (∀ address ∉ addresses, after[address]? = heap.frames[address]?)
        ∧ (addresses.Nodup → (∀ address ∈ addresses, address < heap.frames.length)
          → addresses.map (fun address => after.getD address []) = rows) := by
  induction addresses generalizing rows heap with
  | nil =>
      obtain rfl : rows = [] := by simpa using counted
      exact ⟨heap.frames, rfl, fun _ _ => rfl, fun _ _ => rfl⟩
  | cons address rest ih =>
      cases rows with
      | nil => simp at counted
      | cons frame rows =>
          obtain ⟨after, ran, others, found⟩ :=
            ih (Nat.succ.inj counted) ⟨heap.frames.set address frame, heap.polls⟩
          refine ⟨after, ?_, fun other outside => ?_, fun distinct inside => ?_⟩
          · simpa [writeAll, run_bind] using ran
          · obtain ⟨apart, later⟩ := List.ne_and_not_mem_of_not_mem_cons outside
            rw [others other later, List.getElem?_set_ne apart.symm]
          · obtain ⟨once, distinct⟩ := List.nodup_cons.mp distinct
            obtain ⟨here, inside⟩ := List.forall_mem_cons.mp inside
            have first : after[address]? = some frame := by
              rw [others address once, List.getElem?_set_self here]
            have inside : ∀ other ∈ rest,
                other < (heap.frames.set address frame).length := by simpa using inside
            rw [List.map_cons, found distinct inside]
            simp [first]

end

-----------------------------------------------------------------------------------------
-- Formulas that replace frames
-----------------------------------------------------------------------------------------

/-- What work on the frames of a grid comes to is what is said of the grid: the same result after as
many questions. Frames at other addresses are as they were, and all are where the work fails. The
frames of the grid are found as they were said to be, if each has an address of its own.
-/
structure Carries (frames : List (List Float)) (held : Held)
    (said : Except ApplyError Grid × Nat) (ran : Except ApplyError Unit × Heap) : Prop where
  result : ran.1 = said.1.map fun _ => ()
  polls : ran.2.polls = said.2
  elsewhere : ∀ address ∉ held.addresses, ran.2.frames[address]? = frames[address]?
  kept : ∀ error, said.1 = .error error → ran.2.frames = frames
  written : held.addresses.Nodup
    → ∀ after, said.1 = .ok after → held.grid ran.2.frames = after

section
variable {pass : Pass} {tree : Expr} {check : CancelCheck} {held : Held}
  {frames : List (List Float)} {selected count : Int}

/-- Work that fails has not touched any frame. -/
theorem Carries.of_error (error : ApplyError) (asked : Nat)
    : Carries frames held (.error error, asked) (.error error, ⟨frames, asked⟩) :=
  ⟨rfl, rfl, fun _ _ => rfl, fun _ _ => rfl, fun _ _ failed => by cases failed⟩

theorem carries_replaceSelected (stands : held.StandsIn frames)
    : Carries frames held (applySingle pass tree (held.grid frames) selected count, 0)
        ((replaceSelected pass tree held selected count).run ⟨frames, 0⟩) := by
  simp only [replaceSelected, applySingle, run_bind, run_snapshot, run_attempt, run_onCopy,
    Procedure.compute, Procedure.run_attempt]
  cases passed : checkFrame (held.grid frames) selected count with
  | error error => exact .of_error error 0
  | ok choice =>
      obtain ⟨index, frame⟩ := choice
      simp only [bind, Except.bind]
      cases evaluateFrame pass tree 0.0 0.0 frame frame with
      | error error => exact .of_error (.evaluation error) 0
      | ok values =>
          obtain ⟨-, found, -, -⟩ := checkFrame_ok passed
          obtain ⟨address, here, -⟩ : ∃ address, held.addresses[index]? = some address
              ∧ frames.getD address [] = frame := by
            simpa [Held.grid] using found
          simp only [Except.mapError, run_writeAt here]
          constructor
          case result => rfl
          case polls => rfl
          case elsewhere =>
            intro other outside
            have apart : address ≠ other := fun same =>
              outside (same ▸ List.mem_of_getElem? here)
            exact List.getElem?_set_ne apart
          case kept => intro error failed; cases failed
          case written =>
            intro distinct after applied
            obtain rfl := Except.ok.inj applied
            exact Held.grid_set stands distinct here

/-- The values of all frames are known before the first of them is written. -/
theorem carries_replaceAll (pass : Pass) (tree : Expr) (check : CancelCheck)
    (selected count : Int) (stands : held.StandsIn frames)
    : Carries frames held (applyMulti pass tree check (held.grid frames) selected count)
        ((replaceAll pass tree check held selected count).run ⟨frames, 0⟩) := by
  have start : polls check 0 = 0 := by simp [polls]
  simp only [replaceAll, applyMulti, run_bind, run_snapshot, run_attempt, run_onCopy]
  cases checkFrames (held.grid frames) selected count with
  | error error => exact .of_error error 0
  | ok chosen =>
      have computed := Procedure.run_computeAll pass tree check (held.grid frames).frameCount
        chosen 0 (held.grid frames).frames (held.grid frames)
      rw [start] at computed
      simp only [computed]
      cases evaluated : evaluateFrames pass tree check (held.grid frames).frameCount chosen 0
          (held.grid frames).frames with
      | mk result begun =>
          cases result with
          | error error => exact .of_error error (polls check begun)
          | ok rows =>
              have counted : (rows.map (written pass held.storage)).length
                  = held.addresses.length := by
                simpa [Held.grid] using (evaluateFrames_getElem? evaluated).1
              obtain ⟨after, ran, others, found⟩ :=
                run_writeAll counted ⟨frames, polls check begun⟩
              simp only [ran]
              constructor
              case result => rfl
              case polls => rfl
              case elsewhere => exact others
              case kept => intro error failed; cases failed
              case written =>
                intro distinct grid applied
                obtain rfl := Except.ok.inj applied
                rw [Held.grid, found distinct stands]
                rfl

/-- A new table stands at new addresses, and the frames that there are stay. -/
theorem run_expand (frameCount : Settings.Numeric)
    : (expand held count frameCount).run ⟨frames, 0⟩
      = match Grid.expand (held.grid frames) count frameCount with
        | .error error => (.error error, ⟨frames, 0⟩)
        | .ok table =>
            (.ok ⟨table.storage, List.range' frames.length table.frames.length⟩,
              ⟨frames ++ table.frames, 0⟩) := by
  simp only [expand, run_bind, run_snapshot, run_attempt]
  cases Grid.expand (held.grid frames) count frameCount with
  | error error => rfl
  | ok table => simp only [run_allocateAll, run_pure]

theorem run_inPlace (work : Work Unit) (heap : Heap)
    : (inPlace held work).run heap
      = ((work.run heap).1.map fun _ => held, (work.run heap).2) := by
  rw [inPlace, run_bind]
  rcases work.run heap with ⟨_ | _, behind⟩ <;> rfl

end

-----------------------------------------------------------------------------------------
-- Formulas that are applied as their mode calls for
-----------------------------------------------------------------------------------------

section
variable {pass : Pass} {frameCount : Settings.Numeric} {formula : Compiled} {check : CancelCheck}
  {held : Held} {frames : List (List Float)} {selected count : Int}

theorem run_applyByMode_single (mode : formula.mode = .singleFrame)
    : (applyByMode pass frameCount formula check held selected count).run ⟨frames, 0⟩
      = (inPlace held (replaceSelected pass formula.tree held selected count)).run ⟨frames, 0⟩ := by
  rw [applyByMode, mode]

theorem run_applyByMode_large (mode : formula.mode = .multiFrame)
    (large : needsExpansion (held.grid frames) = false)
    : (applyByMode pass frameCount formula check held selected count).run ⟨frames, 0⟩
      = (inPlace held (replaceAll pass formula.tree check held
          (nearestIndex (held.grid frames) selected) count)).run ⟨frames, 0⟩ := by
  simp [applyByMode, mode, run_bind, large]

theorem run_applyByMode_small (mode : formula.mode = .multiFrame)
    (small : needsExpansion (held.grid frames) = true) {table : Grid}
    (made : Grid.expand (held.grid frames) count frameCount = .ok table)
    : let target : Held := ⟨table.storage, List.range' frames.length table.frames.length⟩
      (applyByMode pass frameCount formula check held selected count).run ⟨frames, 0⟩
      = (inPlace target (replaceAll pass formula.tree check target
          (nearestIndex table selected) count)).run ⟨frames ++ table.frames, 0⟩ := by
  simp [applyByMode, mode, run_bind, small, run_expand, made, Held.grid_new]

end

end Work

open Work

theorem map_eq_error {ε α β : Type} {f : α → β} {attempt : Except ε α} {error : ε}
    : attempt.map f = .error error ↔ attempt = .error error := by
  cases attempt <;> simp [Except.map]

/-- As many copies of the only frame of a grid, or of a silent one where there is none. -/
def copies (grid : Grid) (count size : Int) : Grid :=
  ⟨grid.storage, List.replicate size.toNat
    (grid.frames.headD (List.replicate count.toNat 0.0))⟩

theorem frameCount_copies (grid : Grid) (count : Int) {size : Int} (some : 0 < size)
    : ((copies grid count size).frameCount : Int) = size := by
  simp only [frameCount, copies, List.length_replicate]
  omega

/-- For a positive count of samples, a table is made of copies, or refused for its size. -/
theorem expand_of_positive (grid : Grid) {count : Int} (frameCount : Settings.Numeric)
    (positive : 0 < count)
    : expand grid count frameCount
      = match tableSize? grid.storage frameCount with
        | none => .error .fractionalFrames
        | some size => .ok (copies grid count size) := by
  have inside : ¬ (grid.storage.isBlock = true ∧ grid.frames.isEmpty = true ∧ count < 0) := by
    omega
  rw [expand, if_neg inside]
  rfl

/-- A table of a whole number of frames is made for any positive count of samples. -/
theorem expand_of_whole (grid : Grid) {count : Int} {frameCount : Settings.Numeric} {size : Int}
    (whole : frameCount.whole? = some size) (positive : 0 < count)
    : expand grid count frameCount = .ok (copies grid count size) := by
  rw [expand_of_positive grid frameCount positive, tableSize?, whole]

/-- The frame nearest to the selected one is never refused, where there is a frame at all. -/
theorem applyMulti_nearestIndex {pass : Pass} {tree : Expr} {check : CancelCheck} {grid : Grid}
    (some : 0 < grid.frameCount) (selected count index : Int)
    : (applyMulti pass tree check grid (nearestIndex grid selected) count).1
      ≠ .error (.invalidFrame index) := by
  intro failed
  have inside := nearestIndex_inside selected some
  unfold applyMulti checkFrames checkSelection at failed
  rw [if_neg (by omega)] at failed
  split at failed
  next error refused =>
    obtain rfl := Except.error.inj failed
    split at refused
    next => cases refused
    next =>
      simp only [bind, Except.bind] at refused
      split at refused <;> cases refused
  next chosen passed =>
    split at failed
    next error begun ran =>
      obtain rfl := Except.error.inj failed
      have ending : Ending pass tree check.stops grid.frameCount chosen 0 grid.frames _ :=
        evaluateFrames_ending check 0 grid.frames
      rw [ran] at ending
      cases ending
    next => cases failed

-----------------------------------------------------------------------------------------
-- In place or to copies
-----------------------------------------------------------------------------------------

/-- What a formula comes to that is applied to a held grid is what a report says of the grid. The
grid that is returned is the held one unless the report tells of a new one.
-/
structure Reported (held : Held) (report : Report) (ran : Except ApplyError Held × Heap)
    : Prop where
  result : ran.1.map (fun target => if target = held then none else some (target.grid ran.2.frames))
    = report.result
  grid : held.grid ran.2.frames = report.grid
  polls : ran.2.polls = report.polls

/-- The report of a grid that was to be written in place. -/
def Report.ofInPlace (grid : Grid) (said : Except ApplyError Grid × Nat) : Report :=
  ⟨said.1.map fun _ => none, said.1.toOption.getD grid, said.2⟩

/-- The report of a grid that was left as it was for a new one. -/
def Report.ofNew (grid : Grid) (said : Except ApplyError Grid × Nat) : Report :=
  ⟨said.1.map some, grid, said.2⟩

section
variable {pass : Pass} {frameCount : Settings.Numeric} {formula : Compiled} {check : CancelCheck}
  {grid table : Grid} {selected count : Int}

theorem reportSingle_eq
    : reportSingle pass formula grid selected count
      = .ofInPlace grid (applySingle pass formula.tree grid selected count, 0) := by
  rw [reportSingle]
  cases applySingle pass formula.tree grid selected count <;> rfl

theorem reportMulti_eq
    : reportMulti pass formula check grid selected count
      = .ofInPlace grid (applyMulti pass formula.tree check grid selected count) := by
  rw [reportMulti]
  rcases applyMulti pass formula.tree check grid selected count with ⟨_ | _, _⟩ <;> rfl

theorem reportTable_eq (small : needsExpansion grid = true)
    (made : expand grid count frameCount = .ok table)
    : reportTable pass frameCount formula check grid selected count
      = .ofNew grid (applyMulti pass formula.tree check table (nearestIndex table selected)
          count) := by
  simp only [reportTable, small, if_true, made]
  rcases applyMulti pass formula.tree check table (nearestIndex table selected) count with
    ⟨_ | _, _⟩ <;> rfl

end

section
variable {held target : Held} {frames : List (List Float)} {said : Except ApplyError Grid × Nat}
  {ran : Except ApplyError Unit × Heap}

/-- A grid whose frames have addresses of their own is written in place. -/
theorem Work.Carries.reported (carried : Carries frames held said ran)
    (distinct : held.addresses.Nodup)
    : Reported held (.ofInPlace (held.grid frames) said) (ran.1.map fun _ => held, ran.2) := by
  obtain ⟨result, polls, -, kept, written⟩ := carried
  rcases said with ⟨error | after, asked⟩
  · exact ⟨by rw [result]; rfl, by rw [kept error rfl]; rfl, polls⟩
  · exact ⟨by simp [result, Except.map, Report.ofInPlace], written distinct after rfl, polls⟩

/-- What is written at new addresses leaves the frames at all others as they were. -/
theorem Work.Carries.kept_old {table : Grid}
    (carried : Carries (frames ++ table.frames)
      ⟨table.storage, List.range' frames.length table.frames.length⟩ said ran)
    : ∀ address < frames.length, ran.2.frames[address]? = frames[address]? := by
  intro address old
  have apart : address ∉ List.range' frames.length table.frames.length := by
    simp only [List.mem_range'_1, not_and]
    omega
  rw [carried.elsewhere address apart, List.getElem?_append_left old]

end

section
variable {pass : Pass} {frameCount : Settings.Numeric} {formula : Compiled} {check : CancelCheck}
  {held : Held} {frames : List (List Float)} {selected count : Int} {table : Grid}

/-- A grid that is left as it was for another one is what is reported of a new grid. -/
theorem reported_ofNew {grid : Grid} {said : Except ApplyError Grid × Nat} {target : Held}
    {ran : Except ApplyError Held × Heap} (other : target ≠ held)
    (same : held.grid ran.2.frames = grid) (polls : ran.2.polls = said.2)
    (result : ran.1 = said.1.map fun _ => target)
    (written : ∀ after, said.1 = .ok after → target.grid ran.2.frames = after)
    : Reported held (.ofNew grid said) ran := by
  rcases said with ⟨error | after, asked⟩
  · exact ⟨by rw [result]; rfl, same, polls⟩
  · exact ⟨by simp [result, Except.map, other, written after rfl, Report.ofNew], same, polls⟩

/-- A grid that is written and returned is told of by the report of writing it in place. -/
theorem returned_of_ofInPlace {grid : Grid} {said : Except ApplyError Grid × Nat} {target : Held}
    {ran : Except ApplyError Held × Heap} (polls : ran.2.polls = said.2)
    (result : ran.1 = said.1.map fun _ => target)
    (written : ∀ after, said.1 = .ok after → target.grid ran.2.frames = after)
    : let report := Report.ofInPlace grid said
      ran.2.polls = report.polls
      ∧ (∀ error, report.result = .error error → ran.1 = .error error)
      ∧ ∀ new, report.result = .ok new →
          ran.1 = .ok target ∧ target.grid ran.2.frames = report.grid := by
  rcases said with ⟨error | after, asked⟩
  · refine ⟨polls, fun error' failed => ?_, fun new succeeded => by cases succeeded⟩
    obtain rfl : error = error' := Except.error.inj failed
    exact result
  · exact ⟨polls, (fun error failed => by cases failed), fun new _ => ⟨result, written after rfl⟩⟩

/-- Where a table is made, the formula is written into it, at new addresses, and comes to what it
comes to there. The frames at old addresses are as they were.
-/
theorem applied_to_table (pass : Pass) (check : CancelCheck) (selected : Int)
    (mode : formula.mode = .multiFrame) (small : needsExpansion (held.grid frames) = true)
    (made : Grid.expand (held.grid frames) count frameCount = .ok table)
    (framed : 0 < table.frameCount) (stands : held.StandsIn frames)
    : let target : Held := ⟨table.storage, List.range' frames.length table.frames.length⟩
      let said := applyMulti pass formula.tree check table (nearestIndex table selected) count
      let ran := (applyByMode pass frameCount formula check held selected count).run ⟨frames, 0⟩
      target ≠ held
      ∧ (∀ address < frames.length, ran.2.frames[address]? = frames[address]?)
      ∧ held.grid ran.2.frames = held.grid frames
      ∧ ran.2.polls = said.2
      ∧ ran.1 = said.1.map (fun _ => target)
      ∧ ∀ after, said.1 = .ok after → target.grid ran.2.frames = after := by
  intro target said ran
  have fresh : target.addresses.Nodup := List.nodup_range'
  have standing : target.StandsIn (frames ++ table.frames) := by
    intro address member
    simpa using (List.mem_range'_1.mp member).2
  have carried := carries_replaceAll pass formula.tree check (nearestIndex table selected) count
    standing
  rw [Held.grid_new] at carried
  have kept := carried.kept_old
  have came : ran = _ := (run_applyByMode_small mode small made).trans (run_inPlace _ _)
  rw [came]
  refine ⟨fun same => ?_, kept, Held.grid_congr fun address member =>
    kept address (stands address member), carried.polls, ?_, carried.written fresh⟩
  · -- the first frame of the table stands behind all frames of the grid
    have first : frames.length ∈ target.addresses :=
      List.mem_range'_1.mpr ⟨le_rfl, Nat.lt_add_of_pos_right framed⟩
    exact absurd (stands _ (same ▸ first)) (lt_irrefl _)
  · dsimp only
    rw [carried.result]
    cases said.1 <;> rfl

end

/-- A formula for a single frame replaces the selected frame in place, and one with frame variables
replaces in place all frames of a grid of at least two, with the index brought into range. A grid of
at most one frame is left as it is, as are all frames at old addresses. The formula is then applied
to copies of the only frame, or of a silent one, as many as the settings say, and comes to what it
comes to on these. If it succeeds, the copies, which stand at new addresses of their own, are
returned. A formula with frame variables is never refused for the index. Where each frame of the
grid has an address of its own, all of this is what is reported.
-/
theorem written_in_place_or_to_copies {values : Json.Members} {settings : Settings}
    (accepted : Settings.ofMembers values = .ok settings) {size : Int}
    (whole : settings.frameCount.whole? = some size) {count : Int} (positive : 0 < count)
    (evaluator : Evaluator) (formula : Compiled) (check : CancelCheck) (selected : Int)
    {held : Held} {frames : List (List Float)} (stands : held.StandsIn frames)
    : let pass := passOf settings evaluator
      let grid := held.grid frames
      let nearest := fun total : Int => max 0 (min selected (total - 1))
      let ran := (applyByMode pass settings.frameCount formula check held selected count).run
        ⟨frames, 0⟩
      (held.addresses.Nodup →
        Reported held (apply pass settings.frameCount formula check grid selected count) ran)
      ∧ (formula.mode = .singleFrame →
          ran = (inPlace held (replaceSelected pass formula.tree held selected count)).run
            ⟨frames, 0⟩)
      ∧ (formula.mode = .multiFrame → 2 ≤ grid.frameCount →
          ran = (inPlace held (replaceAll pass formula.tree check held
            (nearest grid.frameCount) count)).run ⟨frames, 0⟩)
      ∧ (formula.mode = .multiFrame → grid.frameCount ≤ 1 →
          (∀ address < frames.length, ran.2.frames[address]? = frames[address]?)
          ∧ held.grid ran.2.frames = grid
          ∧ let said := reportMulti pass formula check (copies grid count size) (nearest size) count
            ran.2.polls = said.polls
            ∧ (∀ error, said.result = .error error → ran.1 = .error error)
            ∧ (∀ new, said.result = .ok new →
                ∃ target, ran.1 = .ok target ∧ target ≠ held
                  ∧ target.addresses.Nodup
                  ∧ (∀ address ∈ target.addresses, frames.length ≤ address)
                  ∧ target.grid ran.2.frames = said.grid))
      ∧ (formula.mode = .multiFrame → ∀ index, ran.1 ≠ .error (.invalidFrame index)) := by
  intro pass grid nearest ran
  have someFrames : 0 < size := positive_of_accepted accepted size whole
  cases mode : formula.mode with
  | singleFrame =>
      have came : ran = _ := run_applyByMode_single mode
      refine ⟨fun distinct => ?_, fun _ => came, ?_, ?_, ?_⟩
      · simp only [apply, mode, reportSingle_eq]
        rw [came, run_inPlace]
        exact (carries_replaceSelected stands).reported distinct
      all_goals exact fun other => by cases other
  | multiFrame =>
      have reported : apply pass settings.frameCount formula check grid selected count
          = reportTable pass settings.frameCount formula check grid selected count := by
        rw [apply, mode]
      rw [reported]
      by_cases few : grid.frameCount ≤ 1
      · have small : needsExpansion grid = true := decide_eq_true few
        have made := expand_of_whole grid whole positive
        have counted := frameCount_copies grid count someFrames
        have framed : 0 < (copies grid count size).frameCount := by omega
        obtain ⟨other, kept, same, polls, result, written⟩ :=
          applied_to_table pass check selected mode small made framed stands
        refine ⟨fun _ => ?_, (fun single => by cases single), fun _ many => absurd few (by omega),
          fun _ _ => ⟨kept, same, ?_⟩, fun _ index refused => ?_⟩
        · rw [reportTable_eq small made]
          exact reported_ofNew other same polls result written
        · have index : nearest size = nearestIndex (copies grid count size) selected := by
            rw [nearestIndex, counted]
          rw [index, reportMulti_eq]
          obtain ⟨asked, failed, succeeded⟩ := returned_of_ofInPlace polls result written
          refine ⟨asked, failed, fun new ok => ?_⟩
          obtain ⟨returned, holds⟩ := succeeded new ok
          exact ⟨_, returned, other, List.nodup_range',
            fun address member => (List.mem_range'_1.mp member).1, holds⟩
        · have refused := map_eq_error.mp (result.symm.trans refused)
          exact applyMulti_nearestIndex framed selected count index refused
      · have large : needsExpansion grid = false := decide_eq_false few
        have came : ran = _ := run_applyByMode_large mode large
        have carried := carries_replaceAll pass formula.tree check (nearestIndex grid selected)
          count stands
        refine ⟨fun distinct => ?_, (fun single => by cases single), fun _ _ => came,
          fun _ other => absurd other few, fun _ index refused => ?_⟩
        · rw [reportTable, large, if_neg Bool.false_ne_true, reportMulti_eq, came, run_inPlace]
          exact carried.reported distinct
        · have framed : 0 < grid.frameCount := by omega
          rw [came, run_inPlace, carried.result] at refused
          exact applyMulti_nearestIndex framed selected count index
            (map_eq_error.mp (map_eq_error.mp refused))

/-- A grid of one frame is left as it is, and two copies of the frame, at addresses 1 and 2, get the
values of the formula, though there is no frame 7.
-/
theorem written_to_two_copies
    : let two : Settings := { Settings.default with frameCount := .whole 2 }
      let formula : Compiled := ⟨.binary .add (.var "in") (.var "y"), true, false, "in + y"⟩
      let held : Held := ⟨.lists, [0]⟩
      let ran := (applyByMode (passOf two .default) two.frameCount formula none held 7 1).run
        ⟨[[0.25]], 0⟩
      Settings.ofMembers [("default_frame_count", .integer 2)] = .ok two
      ∧ held.StandsIn [[0.25]]
      ∧ held.grid ran.2.frames = ⟨.lists, [[0.25]]⟩
      ∧ ∃ target table, ran.1 = .ok target ∧ target ≠ held ∧ target.addresses.Nodup
        ∧ (∀ address ∈ target.addresses, 1 ≤ address)
        ∧ target.grid ran.2.frames = ⟨.lists, table⟩
        ∧ table = [[0.25], [1.0]] := by
  intro two formula held ran
  have accepted : Settings.ofMembers [("default_frame_count", .integer 2)] = .ok two := rfl
  have stands : held.StandsIn [[0.25]] := by simp [Held.StandsIn, held]
  have written : ∃ new table,
      let said := reportMulti (passOf two .default) formula none ⟨.lists, [[0.25], [0.25]]⟩ 1 1
      said.result = .ok new ∧ said.grid = ⟨.lists, table⟩ ∧ table = [[0.25], [1.0]] :=
    ⟨_, _, rfl, rfl, by decide +kernel⟩
  obtain ⟨new, table, result, grid, samples⟩ := written
  have one : (0 : Int) < 1 := by decide
  obtain ⟨-, -, -, few, -⟩ :=
    written_in_place_or_to_copies accepted rfl one .default formula none 7 stands
  obtain ⟨-, same, -, -, succeeded⟩ := few rfl (by decide)
  obtain ⟨target, returned, other, distinct, fresh, holds⟩ := succeeded new result
  exact ⟨accepted, stands, same, target, table, returned, other, distinct, fresh,
    holds.trans grid, samples⟩

end Wavetable.Grid
