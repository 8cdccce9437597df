import Wavetable.Journal.Layout

/-!
Handlers: where the records of which levels are written, and in which layout.
-/

namespace Wavetable.Journal

inductive Sink
  | output
  | errors
  deriving Repr, DecidableEq

def Sink.handlerName : Sink → String
  | .output => "wavexpr.stdout"
  | .errors => "wavexpr.stderr"

structure Line where
  sink : Sink
  text : String
  deriving Repr, DecidableEq

/-- A handler writes the records from a level on, up to but not including another if that one
is given.
-/
structure Handler where
  sink : Sink
  lowest : Level
  bound : Option Level
  layout : Layout
  deriving Repr, DecidableEq

namespace Handler

/-- The handler writes records of the level. -/
def accepts (handler : Handler) (level : Level) : Bool :=
  handler.lowest ≤ level
    && match handler.bound with
      | some bound => level < bound
      | none => true

def line (handler : Handler) (context : Fields) (record : Record) : Line :=
  ⟨handler.sink, handler.layout.text context record ++ "\n"⟩

/-- What writes the records of loggers without any handler above them. -/
def lastResort : Handler :=
  ⟨.errors, Level.warning, none, .bare⟩

end Handler

/-- How a journal is to be written. -/
structure Options where
  level : Level.Choice := .number Level.debug
  asObjects : Bool := true
  showsTrace : Bool := false
  brief : Bool := false
  routesErrors : Bool := false
  deriving Repr, DecidableEq

namespace Options

/-- The layout that options ask for. -/
def layout (options : Options) : Layout :=
  if options.brief then .brief
  else if options.asObjects then .object options.showsTrace
  else .plain

/-- The handlers that options ask for. Errors that are routed are left out of the output. -/
def handlers (options : Options) (level : Level) : List Handler :=
  let output := fun bound : Option Level => Handler.mk .output level bound options.layout
  if options.routesErrors then
    [⟨.errors, max level Level.error, none, options.layout⟩, output (some Level.error)]
  else [output none]

end Options

end Wavetable.Journal
