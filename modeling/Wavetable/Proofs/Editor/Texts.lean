import Wavetable.Editor.History

/-!
What an editor shows after any steps. Its text, its mode and its formula depend on the texts that
were typed alone, and a formula that could be read gives way to nothing but another one.
-/

namespace Wavetable.Editor

open Formula

/-- A text cannot be read. -/
def Unreadable (text : String) : Prop :=
  ∃ error, compile (Text.trim text) = .error error

/-- The formula of the last of some texts that can be read; there is none if none of them can. -/
inductive LastRead : List String → Option Compiled → Prop
  | never {texts} (unread : ∀ text ∈ texts, Unreadable text) : LastRead texts none
  | last {before text behind formula} (read : compile (Text.trim text) = .ok formula)
    (unread : ∀ later ∈ behind, Unreadable later)
    : LastRead (before ++ text :: behind) (some formula)

/-- What an editor shows is what the texts that were typed into it call for. -/
structure Follows (editor : Editor) (texts : List String) : Prop where
  text : editor.text = Text.trim (texts.getLast?.getD "")
  mode : ∀ mode, editor.mode = some mode
    ↔ editor.text ≠ "" ∧ ∃ formula, compile editor.text = .ok formula ∧ formula.mode = mode
  compiled : LastRead texts editor.compiled

section
variable {editor : Editor} {texts : List String} {text : String} {formula : Compiled}

theorem LastRead.append_unreadable {kept : Option Compiled} (reads : LastRead texts kept)
    (unread : Unreadable text)
    : LastRead (texts ++ [text]) kept := by
  cases reads with
  | never others =>
      refine .never fun later member => ?_
      rcases List.mem_append.mp member with earlier | here
      · exact others later earlier
      · exact List.mem_singleton.mp here ▸ unread
  | last read others =>
      rw [List.append_assoc, List.cons_append]
      refine .last read fun later member => ?_
      rcases List.mem_append.mp member with earlier | here
      · exact others later earlier
      · exact List.mem_singleton.mp here ▸ unread

theorem LastRead.append_readable (texts : List String)
    (read : compile (Text.trim text) = .ok formula)
    : LastRead (texts ++ [text]) (some formula) :=
  .last read (List.forall_mem_nil _)

/-- The last text is the one whose formula is kept, if it can be read. -/
theorem LastRead.of_last {kept : Option Compiled} (reads : LastRead texts kept)
    (ended : texts.getLast? = some text) (read : compile (Text.trim text) = .ok formula)
    : kept = some formula := by
  cases reads with
  | never unread =>
      obtain ⟨error, refused⟩ := unread text (List.mem_of_getLast? ended)
      cases read.symm.trans refused
  | @last before earlier behind formula' read' unread =>
      cases behind with
      | nil =>
          obtain rfl : earlier = text := by simpa using ended
          exact congrArg Option.some (Except.ok.inj (read'.symm.trans read))
      | cons next rest =>
          have later : (next :: rest).getLast? = some text := by
            simpa [List.getLast?_append, List.getLast?_cons_cons] using ended
          obtain ⟨error, refused⟩ := unread text (List.mem_of_getLast? later)
          cases read.symm.trans refused

/-- A formula that is kept is that of a text that was typed. -/
theorem LastRead.exists_text {kept : Option Compiled} (reads : LastRead texts kept)
    (found : kept = some formula)
    : ∃ text ∈ texts, compile (Text.trim text) = .ok formula := by
  cases reads with
  | never => contradiction
  | last read =>
      obtain rfl := Option.some.inj found
      exact ⟨_, by simp, read⟩

/-- A formula keeps the source that it was read from. -/
theorem source_of_compile {source : String} (read : compile source = .ok formula)
    : formula.source = source := by
  obtain ⟨tree, -, rfl⟩ := compile_eq_ok_iff.mp read
  rfl

theorem compile_empty : ∃ error, compile "" = .error error :=
  ⟨_, rfl⟩

-----------------------------------------------------------------------------------------
-- What a step does
-----------------------------------------------------------------------------------------

theorem update_of_read (read : compile (Text.trim text) = .ok formula)
    : editor.update text
      = ⟨editor.settings, Text.trim text, some formula.mode, some formula, none⟩ := by
  have visible : (Text.trim text).isEmpty = false := by
    rw [Bool.eq_false_iff]
    intro empty
    obtain ⟨error, refused⟩ := compile_empty
    rw [String.isEmpty_iff.mp empty, refused] at read
    contradiction
  simp [update, visible, read]

theorem update_of_unreadable (editor : Editor) (unread : Unreadable text)
    : (editor.update text).text = Text.trim text
      ∧ (editor.update text).mode = none
      ∧ (editor.update text).compiled = editor.compiled := by
  obtain ⟨error, refused⟩ := unread
  unfold update
  dsimp only
  split
  next => exact ⟨rfl, rfl, rfl⟩
  next => simp [refused]

theorem Follows.update (follows : Follows editor texts) (text : String)
    : Follows (editor.update text) (texts ++ [text]) := by
  cases read : compile (Text.trim text) with
  | error error =>
      have unread : Unreadable text := ⟨error, read⟩
      obtain ⟨shown, mode, compiled⟩ := update_of_unreadable editor unread
      refine ⟨by simp [shown], ?_, compiled ▸ follows.compiled.append_unreadable unread⟩
      rw [mode, shown, read]
      simp
  | ok formula =>
      have visible : Text.trim text ≠ "" := by
        intro empty
        obtain ⟨error, refused⟩ := compile_empty
        cases (empty ▸ read).symm.trans refused
      rw [update_of_read read]
      refine ⟨by simp, ?_, .append_readable texts read⟩
      simp [visible, read]

theorem Follows.compiled_of_read (follows : Follows editor texts)
    (read : compile editor.text = .ok formula)
    : editor.compiled = some formula := by
  rw [follows.text] at read
  cases ended : texts.getLast? with
  | none =>
      obtain ⟨error, refused⟩ := compile_empty
      rw [ended] at read
      cases read.symm.trans refused
  | some last =>
      rw [ended] at read
      exact follows.compiled.of_last ended read

/-- The formula that an editor reads when it is applied is the one that it shows already. -/
theorem Follows.apply (follows : Follows editor texts) (check : Grid.CancelCheck) (grid : Grid)
    (selected count : Int)
    : let applied := (editor.apply check grid selected count).editor
      applied.text = editor.text ∧ applied.mode = editor.mode
        ∧ applied.compiled = editor.compiled := by
  intro applied
  cases read : compile editor.text with
  | error error =>
      by_cases empty : editor.text.isEmpty = true <;> simp [applied, Editor.apply, empty, read]
  | ok formula =>
      have visible : editor.text ≠ "" := by
        intro empty
        obtain ⟨error, refused⟩ := compile_empty
        cases (empty ▸ read).symm.trans refused
      have mode : editor.mode = some formula.mode :=
        (follows.mode _).mpr ⟨visible, formula, read, rfl⟩
      have compiled := follows.compiled_of_read read
      have notEmpty : editor.text.isEmpty = false := by simpa using visible
      simp only [applied, Editor.apply, notEmpty, Bool.false_eq_true, if_false, read, mode,
        compiled]
      rcases Grid.apply (.ofSettings editor.settings) editor.settings.frameCount formula check grid
        selected count with ⟨_ | _, _, _⟩ <;> exact ⟨rfl, rfl, rfl⟩

end

/-- Each step keeps to the texts that were typed so far. -/
theorem Follows.perform {editor : Editor} {texts : List String} (follows : Follows editor texts)
    (step : Step)
    : Follows (step.perform editor) (texts ++ step.text?.toList) := by
  cases step with
  | update text => exact follows.update text
  | apply check grid selected count =>
      obtain ⟨text, mode, compiled⟩ := follows.apply check grid selected count
      rw [Step.text?, Option.toList_none, List.append_nil]
      constructor
      case text => exact text.trans follows.text
      case mode =>
        rw [Step.perform, mode, text]
        exact follows.mode
      case compiled => exact compiled ▸ follows.compiled

/-- Any steps keep to the texts that were typed, by induction on the steps. -/
theorem Follows.after {editor : Editor} {texts : List String} (follows : Follows editor texts)
    (steps : List Step)
    : Follows (editor.after steps) (texts ++ steps.filterMap Step.text?) := by
  induction steps generalizing editor texts with
  | nil => simpa [Editor.after] using follows
  | cons step rest ih =>
      have next := ih (follows.perform step)
      rw [List.append_assoc] at next
      cases step <;> exact next

/-- An editor is opened as if its first text had been typed. -/
theorem follows_start (settings : Settings) (text : String)
    : Follows (start settings text) [text] := by
  have opened : Follows (empty settings) [] :=
    ⟨rfl, by simp [empty], .never (List.forall_mem_nil _)⟩
  unfold start
  split
  next none =>
    have unread : Unreadable "" := compile_empty
    obtain rfl := String.isEmpty_iff.mp none
    exact ⟨rfl, opened.mode, opened.compiled.append_unreadable unread⟩
  next => exact opened.update text

/-- After any steps, the text of an editor is the last one that was typed, without the blanks around
it. The mode is that of the text if it can be read, and the formula is that of the last text that
could be read, of which it keeps the source. Hence the formula of a valid text is that text's own,
and a step that fails leaves the formula as it was.
-/
theorem after_follows_texts (settings : Settings) (text : String) (steps : List Step)
    : let editor := (start settings text).after steps
      let texts := text :: steps.filterMap Step.text?
      editor.text = Text.trim (texts.getLast?.getD "")
      ∧ (∀ mode, editor.mode = some mode
          ↔ editor.text ≠ "" ∧ ∃ formula, compile editor.text = .ok formula ∧ formula.mode = mode)
      ∧ LastRead texts editor.compiled
      ∧ (∀ formula, editor.compiled = some formula
          → ∃ text ∈ texts, compile (Text.trim text) = .ok formula
            ∧ formula.source = Text.trim text)
      ∧ (editor.isValid = true
          → ∃ formula, compile editor.text = .ok formula ∧ editor.compiled = some formula)
      ∧ ∀ step : Step, step.Fails editor
          → (step.perform editor).compiled = editor.compiled := by
  intro editor texts
  have follows : Follows editor texts := (follows_start settings text).after steps
  refine ⟨follows.text, follows.mode, follows.compiled, ?_, ?_, ?_⟩
  · intro formula kept
    obtain ⟨typed, member, read⟩ := follows.compiled.exists_text kept
    exact ⟨typed, member, read, source_of_compile read⟩
  · intro valid
    obtain ⟨mode, shown⟩ := Option.isSome_iff_exists.mp valid
    obtain ⟨-, formula, read, -⟩ := (follows.mode mode).mp shown
    exact ⟨formula, read, follows.compiled_of_read read⟩
  · intro step fails
    cases step with
    | update text => exact (update_of_unreadable editor fails).2.2
    | apply check grid selected count => exact (follows.apply check grid selected count).2.2

/-- A formula is typed and is not applied, as no samples are asked for. It is still the formula of
the text, and it is kept when the text is cut short.
-/
theorem after_follows_texts_cut_short
    : let editor := (start .default " in*y ").after [.apply none ⟨.lists, [[0.5]]⟩ 0 0]
      let formula := Compiled.ofTree "in*y" (.binary .multiply (.var "in") (.var "y"))
      editor.isValid = true
      ∧ editor.compiled = some formula
      ∧ (∃ text ∈ [" in*y "], compile (Text.trim text) = .ok formula
          ∧ formula.source = Text.trim text)
      ∧ Step.Fails editor (.update "in*")
      ∧ (editor.update "in*").compiled = some formula := by
  intro editor formula
  obtain ⟨shown, -, -, sourced, valid, failed⟩ :=
    after_follows_texts .default " in*y " [.apply none ⟨.lists, [[0.5]]⟩ 0 0]
  have isValid : editor.isValid = true := by decide +kernel
  have read : compile editor.text = .ok formula := by
    rw [shown]
    rfl
  have cut : Step.Fails editor (.update "in*") := ⟨_, rfl⟩
  obtain ⟨formula', read', kept⟩ := valid isValid
  obtain rfl : formula' = formula := Except.ok.inj (read'.symm.trans read)
  exact ⟨isValid, kept, sourced _ kept, cut, (failed _ cut).trans kept⟩

end Wavetable.Editor
