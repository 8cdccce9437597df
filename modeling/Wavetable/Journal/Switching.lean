import Wavetable.Journal.Basic

/-!
Calls that switch writing on and off, as steps on a journal: handlers are taken away by their names
and added one after the other, and a level that cannot be read ends a call where it is read.
-/

namespace Wavetable.Journal

/-- Work on a journal goes on until it ends or a level is rejected. What was changed stays. -/
abbrev Switching := ExceptT Level.ChoiceError (StateM Journal)

namespace Switching

/-- What work comes to, and the journal as it is then. -/
def run {α : Type} (work : Switching α) (journal : Journal)
    : Except Level.ChoiceError α × Journal :=
  StateT.run (ExceptT.run work) journal

/-- A level is read. -/
def choose (choice : Level.Choice) : Switching Level :=
  MonadExcept.ofExcept choice.level

def setThreshold (level : Level) : Switching Unit :=
  modify fun journal => { journal with threshold := level }

/-- A handler is added behind the others. -/
def install (handler : Handler) : Switching Unit :=
  modify fun journal => { journal with handlers := journal.handlers ++ [handler] }

/-- Handlers with the names are taken away. -/
def uninstall (names : List String) : Switching Unit :=
  modify fun journal =>
    { journal with
      handlers := journal.handlers.filter fun handler => !names.contains handler.sink.handlerName }

def setLevel (choice : Level.Choice) : Switching Unit := do
  setThreshold (← choose choice)

def disable : Switching Unit :=
  uninstall [Sink.output.handlerName, Sink.errors.handlerName]

/-- The handlers that options ask for are added. -/
def installFor (options : Options) (level : Level) : Switching Unit := do
  if options.routesErrors then
    install ⟨.errors, max level Level.error, none, options.layout⟩
    install ⟨.output, level, some Level.error, options.layout⟩
  else install ⟨.output, level, none, options.layout⟩

/-- Handlers are replaced. The level is read before anything is changed. -/
def enable (options : Options) : Switching Unit := do
  let level ← choose options.level
  let threshold := (← get).threshold
  setThreshold (min (if threshold = 0 then level else threshold) level)
  disable
  installFor options level

/-- The level is read and set before the other variables are. -/
def configure (environment : Environment) : Switching Unit := do
  setLevel (environmentLevel environment)
  if isSwitchedOn environment "WAVEXPR_LOG_STDOUT" then enable (environmentOptions environment)
  else disable

end Switching

/-- A call that switches writing on or off, or sets the threshold. -/
inductive Call
  | enable (options : Options)
  | disable
  | setLevel (choice : Level.Choice)
  | configure (environment : Environment)

def Call.work : Call → Switching Unit
  | .enable options => .enable options
  | .disable => .disable
  | .setLevel choice => .setLevel choice
  | .configure environment => .configure environment

/-- The journal after calls, of which some may have been rejected. -/
def afterCalls (journal : Journal) (calls : List Call) : Journal :=
  calls.foldl (fun journal call => (call.work.run journal).2) journal

end Wavetable.Journal
