import Mathlib.Data.List.Induction
import Wavetable.Journal.Switching

/-!
Which handlers there are after calls that switch writing on and off, and what is written of a
record. The handlers are those of the last call that changed them, and of these at most one takes a
record.
-/

namespace Wavetable.Journal

namespace Switching

section
variable {α β : Type} (journal : Journal)

theorem run_bind (work : Switching α) (next : α → Switching β)
    : (work >>= next).run journal
      = match work.run journal with
        | (.ok x, behind) => (next x).run behind
        | (.error error, behind) => (.error error, behind) := by
  show (ExceptT.bindCont next (work.run journal).1 : Switching β) (work.run journal).2 = _
  rcases work.run journal with ⟨_ | _, behind⟩ <;> rfl

@[simp]
theorem run_choose (choice : Level.Choice)
    : (choose choice).run journal = (choice.level, journal) := by
  rw [choose]
  cases choice.level <;> rfl

@[simp]
theorem run_get : (get : Switching Journal).run journal = (.ok journal, journal) :=
  rfl

@[simp]
theorem run_setThreshold (level : Level)
    : (setThreshold level).run journal = (.ok (), { journal with threshold := level }) :=
  rfl

@[simp]
theorem run_install (handler : Handler)
    : (install handler).run journal
      = (.ok (), { journal with handlers := journal.handlers ++ [handler] }) :=
  rfl

/-- Both names are taken away, so no handler is left. -/
@[simp]
theorem run_disable : disable.run journal = (.ok (), journal.disable) := by
  have none : (journal.handlers.filter fun handler =>
      !([Sink.output.handlerName, Sink.errors.handlerName].contains handler.sink.handlerName))
      = [] := by
    refine List.filter_eq_nil_iff.mpr fun handler _ => ?_
    cases handler.sink <;> decide
  rw [Journal.disable, ← none]
  rfl

@[simp]
theorem run_installFor (options : Options) (level : Level)
    : (installFor options level).run journal
      = (.ok (), { journal with handlers := journal.handlers ++ options.handlers level }) := by
  unfold installFor Options.handlers
  cases options.routesErrors <;> simp [run_bind]

/-- What a call comes to that changes a journal as a whole or not at all. -/
def settled (journal : Journal) : Except Level.ChoiceError Journal
    → Except Level.ChoiceError Unit × Journal
  | .ok after => (.ok (), after)
  | .error error => (.error error, journal)

theorem run_setLevel (choice : Level.Choice)
    : (setLevel choice).run journal = settled journal (journal.setLevel choice) := by
  rw [setLevel, run_bind, run_choose, Journal.setLevel]
  cases choice.level <;> rfl

theorem run_enable (options : Options)
    : (enable options).run journal = settled journal (journal.enable options) := by
  rw [enable, run_bind, run_choose, Journal.enable]
  cases options.level.level with
  | error error => rfl
  | ok level =>
      have lowered : min (if journal.threshold = 0 then level else journal.threshold) level
          = if journal.threshold = 0 then level else min journal.threshold level := by
        split <;> simp
      simp only [run_bind, run_get, run_setThreshold, run_disable, run_installFor, lowered]
      rfl

/-- An environment names a level, which is set before its other variables are read. -/
theorem configure_eq (environment : Environment)
    : journal.configure environment
      = match (environmentLevel environment).level with
        | .error error => .error error
        | .ok level =>
            let journal := { journal with threshold := level }
            if isSwitchedOn environment "WAVEXPR_LOG_STDOUT" then
              journal.enable (environmentOptions environment)
            else .ok journal.disable := by
  rw [Journal.configure, Journal.setLevel]
  cases (environmentLevel environment).level <;>
    simp only [Bind.bind, Except.bind, pure, Except.pure]

/-- The level of an environment is read twice, so once it has been set the call does not fail. -/
theorem run_configure (environment : Environment)
    : (configure environment).run journal = settled journal (journal.configure environment) := by
  rw [configure, run_bind, run_setLevel, configure_eq, Journal.setLevel]
  cases chosen : (environmentLevel environment).level with
  | error error => rfl
  | ok level =>
      have again : (environmentOptions environment).level.level = .ok level := chosen
      cases isSwitchedOn environment "WAVEXPR_LOG_STDOUT" with
      | true =>
          simp only [if_true, Journal.enable, again]
          refine (run_enable _ _).trans ?_
          rw [Journal.enable, again]
          rfl
      | false => exact run_disable _

end

end Switching

-----------------------------------------------------------------------------------------
-- Handlers after calls
-----------------------------------------------------------------------------------------

/-- What a call makes of the handlers that there are: none of them is left, or those that options
ask for take their place.
-/
inductive Installed
  | nothing
  | handlers (options : Options) (level : Level)

def Installed.toList : Installed → List Handler
  | .nothing => []
  | .handlers options level => options.handlers level

def Installed.options? : Installed → Option Options
  | .nothing => none
  | .handlers options _ => some options

/-- What a call makes of the handlers, unless it is rejected or only sets the threshold. -/
def Call.installed? : Call → Option Installed
  | .enable options => options.level.level.toOption.map (.handlers options)
  | .disable => some .nothing
  | .setLevel _ => none
  | .configure environment =>
      (environmentLevel environment).level.toOption.map fun level =>
        if isSwitchedOn environment "WAVEXPR_LOG_STDOUT" then
          .handlers (environmentOptions environment) level
        else .nothing

/-- The options with which handlers were last installed. -/
def lastOptions? (calls : List Call) : Option Options :=
  ((calls.filterMap Call.installed?).filterMap Installed.options?).getLast?

/-- Handlers that are set up by calls: none, or those that options ask for, which keep errors apart
if these are to be.
-/
def IsSetUp (apart : Prop) (handlers : List Handler) : Prop :=
  handlers = []
  ∨ ∃ (options : Options) (level : Level),
      (apart → options.routesErrors = true) ∧ handlers = options.handlers level

section
variable (journal : Journal)

/-- A rejected call has changed nothing. -/
theorem run_work_error {call : Call} {error : Level.ChoiceError}
    (rejected : (call.work.run journal).1 = .error error)
    : (call.work.run journal).2 = journal := by
  have unchanged : ∀ attempt, (Switching.settled journal attempt).1 = .error error
      → (Switching.settled journal attempt).2 = journal := by
    rintro (_ | _) failed
    · rfl
    · cases failed
  cases call with
  | enable options =>
      rw [Call.work, Switching.run_enable] at rejected ⊢
      exact unchanged _ rejected
  | disable => cases rejected
  | setLevel choice =>
      rw [Call.work, Switching.run_setLevel] at rejected ⊢
      exact unchanged _ rejected
  | configure environment =>
      rw [Call.work, Switching.run_configure] at rejected ⊢
      exact unchanged _ rejected

/-- The handlers after a call are the ones that it installed, or those from before. -/
theorem run_work_handlers (call : Call)
    : (call.work.run journal).2.handlers
      = (call.installed?.map Installed.toList).getD journal.handlers := by
  cases call with
  | enable options =>
      rw [Call.work, Switching.run_enable, Journal.enable, Call.installed?]
      cases options.level.level <;> rfl
  | disable => simp [Call.work, Call.installed?, Installed.toList, Journal.disable]
  | setLevel choice =>
      rw [Call.work, Switching.run_setLevel, Journal.setLevel, Call.installed?]
      cases choice.level <;> rfl
  | configure environment =>
      rw [Call.work, Switching.run_configure, Switching.configure_eq, Call.installed?]
      cases chosen : (environmentLevel environment).level with
      | error error => rfl
      | ok level =>
          have again : (environmentOptions environment).level.level = .ok level := chosen
          cases isSwitchedOn environment "WAVEXPR_LOG_STDOUT" with
          | true =>
              simp only [if_true, Journal.enable, again]
              rfl
          | false => rfl

/-- The handlers are those of the last call that changed them, by induction on the calls. -/
theorem afterCalls_handlers (calls : List Call)
    : (afterCalls journal calls).handlers
      = ((calls.filterMap Call.installed?).getLast?.map Installed.toList).getD
          journal.handlers := by
  induction calls using List.reverseRecOn with
  | nil => rfl
  | append_singleton before call ih =>
      have last : afterCalls journal (before ++ [call])
          = (call.work.run (afterCalls journal before)).2 := by
        simp [afterCalls]
      rw [last, run_work_handlers, ih]
      cases changed : call.installed? <;> simp [changed]

/-- The handlers that a journal has got by calls are those of the options that were last used to
install any, or all of them were taken away.
-/
theorem isSetUp_afterCalls (calls : List Call)
    : IsSetUp (∃ options, lastOptions? calls = some options ∧ options.routesErrors = true)
        (afterCalls journal.disable calls).handlers := by
  rw [afterCalls_handlers, lastOptions?]
  rcases List.eq_nil_or_concat (calls.filterMap Call.installed?) with none | ⟨before, last, split⟩
  · simp [none, Journal.disable, IsSetUp]
  · rw [split]
    cases last with
    | nothing => simp [Installed.toList, IsSetUp]
    | handlers options level =>
        refine .inr ⟨options, level, ?_, by simp [Installed.toList]⟩
        rintro ⟨options', last, routed⟩
        obtain rfl : options = options' := by simpa [Installed.options?] using last
        exact routed

end

-----------------------------------------------------------------------------------------
-- Lines of a record
-----------------------------------------------------------------------------------------

/-- The handler that takes a record of a level, among those that options ask for. -/
def Options.taker (options : Options) (level recordLevel : Level) : Handler :=
  if options.routesErrors then
    if Level.error ≤ recordLevel then ⟨.errors, max level Level.error, none, options.layout⟩
    else ⟨.output, level, some Level.error, options.layout⟩
  else ⟨.output, level, none, options.layout⟩

/-- Of the handlers that options ask for, one takes the records from their level on. -/
theorem Options.filter_accepts (options : Options) (level recordLevel : Level)
    : (options.handlers level).filter (·.accepts recordLevel)
      = if level ≤ recordLevel then [options.taker level recordLevel] else [] := by
  unfold Options.handlers Options.taker
  cases options.routesErrors with
  | false =>
      by_cases taken : level ≤ recordLevel <;> simp [taken, Handler.accepts]
  | true =>
      have graver : max level Level.error ≤ recordLevel
          ↔ level ≤ recordLevel ∧ Level.error ≤ recordLevel := Int.max_le
      have lighter : recordLevel < Level.error ↔ ¬ Level.error ≤ recordLevel := Int.not_le.symm
      by_cases taken : level ≤ recordLevel <;> by_cases grave : Level.error ≤ recordLevel
      all_goals
        simp only [if_true, List.filter_cons, List.filter_nil, Handler.accepts, graver, lighter,
          taken, grave]
        simp

/-- What is written of a record is one line at most. Of a logger below the root, it stands among the
errors exactly for an error, where these are kept apart; of any other logger, it always does, and
the record is at least a warning.
-/
structure Delivered (apart : Prop) (logger : Option String) (level : Level) (lines : List Line)
    : Prop where
  once : lines.length ≤ 1
  below : isBelowRoot logger = true → apart
    → ∀ line ∈ lines, line.sink = .errors ↔ Level.error ≤ level
  stray : isBelowRoot logger = false
    → ∀ line ∈ lines, line.sink = .errors ∧ Level.warning ≤ level

section
variable {journal : Journal} {clock : Clock} {apart : Prop} {logger : Option String}
  {level : Level} {lines : List Line}

theorem Delivered.nil : Delivered apart logger level [] :=
  ⟨Nat.zero_le 1, by simp, by simp⟩

/-- The last resort takes warnings and graver records. -/
theorem filter_accepts_lastResort (recordLevel : Level)
    : [Handler.lastResort].filter (·.accepts recordLevel)
      = if Level.warning ≤ recordLevel then [.lastResort] else [] := by
  simp [List.filter_cons, Handler.accepts, Handler.lastResort]

/-- Below the root, the handlers of the journal write a record. -/
theorem written_below {record : Record} (place : isBelowRoot logger = true)
    : journal.written logger record
      = (journal.handlers.filter (·.accepts record.level)).map (·.line journal.context record) := by
  simp only [written, handlersFor, place, if_true]

/-- Elsewhere the last resort writes a record from a warning on. -/
theorem written_stray {record : Record} (place : isBelowRoot logger = false)
    : journal.written logger record
      = if Level.warning ≤ record.level then [Handler.lastResort.line journal.context record]
        else [] := by
  have lines : journal.written logger record
      = ([Handler.lastResort].filter (·.accepts record.level)).map
          (·.line journal.context record) := by
    simp only [written, handlersFor, place]
    rfl
  rw [lines, filter_accepts_lastResort]
  split <;> rfl

theorem delivered_written {record : Record} (setUp : IsSetUp apart journal.handlers)
    : Delivered apart logger record.level (journal.written logger record) := by
  cases place : isBelowRoot logger with
  | true =>
      rw [written_below place]
      rcases setUp with none | ⟨options, least, routed, some⟩
      · rw [none]
        exact .nil
      · rw [some, Options.filter_accepts]
        by_cases taken : least ≤ record.level
        · rw [if_pos taken]
          constructor
          case once => exact Nat.le_refl 1
          case below =>
            intro _ kept line member
            obtain rfl := List.mem_singleton.mp member
            simp only [Handler.line, Options.taker, routed kept, if_true]
            by_cases grave : Level.error ≤ record.level <;> simp [grave]
          case stray =>
            intro other
            cases place.symm.trans other
        · rw [if_neg taken]
          exact .nil
  | false =>
      rw [written_stray place]
      by_cases grave : Level.warning ≤ record.level
      · rw [if_pos grave]
        constructor
        case once => exact Nat.le_refl 1
        case below =>
          intro other
          cases place.symm.trans other
        case stray =>
          intro _ line member
          obtain rfl := List.mem_singleton.mp member
          exact ⟨rfl, grave⟩
      · rw [if_neg grave]
        exact .nil

/-- A record has the level of its note. -/
theorem record?_level {note : Note} {record : Record}
    (made : note.record? clock = .ok (some record))
    : record.level = note.level := by
  obtain ⟨-, message, -, rfl⟩ := Note.record?_ok made
  rfl

theorem delivered_emit {note : Note} (setUp : IsSetUp apart journal.handlers)
    (emitted : journal.emit clock note = .ok lines)
    : Delivered apart note.logger note.level lines := by
  unfold emit at emitted
  split at emitted
  next =>
    split at emitted
    next => cases emitted
    next =>
      obtain rfl := Except.ok.inj emitted
      exact .nil
    next record made =>
      obtain rfl := Except.ok.inj emitted
      exact record?_level made ▸ delivered_written setUp
  next =>
    obtain rfl := Except.ok.inj emitted
    exact .nil

theorem delivered_emitWith {note : Note} {values : Fields} (setUp : IsSetUp apart journal.handlers)
    (emitted : journal.emitWith clock note values = .ok lines)
    : Delivered apart note.logger note.level lines := by
  unfold emitWith at emitted
  split at emitted
  next => cases emitted
  next note' named =>
    have kept : note'.logger = note.logger ∧ note'.level = note.level := by
      unfold Note.withValues at named
      split at named
      next => cases named
      next =>
        obtain rfl := Except.ok.inj named
        exact ⟨rfl, rfl⟩
    obtain ⟨logger, level⟩ := kept
    exact logger ▸ level ▸ delivered_emit setUp emitted

theorem delivered_warnOnce {code template : String} {values : Fields}
    (setUp : IsSetUp apart journal.handlers)
    (emitted : (journal.warnOnce clock logger code level template values).1 = .ok lines)
    : Delivered apart logger level lines := by
  unfold warnOnce at emitted
  split at emitted
  next => cases emitted
  next =>
    split at emitted
    next =>
      obtain rfl := Except.ok.inj emitted
      exact .nil
    next => exact delivered_emitWith setUp emitted

end

end Wavetable.Journal
