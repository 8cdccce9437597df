import Wavetable.Journal.Literal
import Wavetable.Journal.Record

/-!
Layouts of records: an object on one line for programs, two lines of text for readers, one of which
shows what a pass is about, and the message alone.
-/

namespace Wavetable.Journal

inductive Layout
  | object (showsTrace : Bool)
  | brief
  | plain
  | bare
  deriving Repr, DecidableEq

namespace Layout

/-- An error as a member of an object. -/
def causeObject (showsTrace : Bool) (cause : Cause) : Json :=
  .object
    ([("type", .text cause.kind), ("message", (cause.message?.map Json.text).getD .null)]
      ++ if showsTrace then [("stack", .text cause.trace)] else [])

/-- The members that say what the record is. -/
def heading (record : Record) : Json.Members :=
  [("ts", .text record.clock.stamp), ("level", .text record.level.text),
   ("logger", .text record.logger)]
    ++ if record.message.isEmpty then [] else [("message", .text record.message)]

/-- The members of a record: its heading, the context, its own fields, which win over the context,
and its error.
-/
def members (showsTrace : Bool) (context : Fields) (record : Record) : Json.Members :=
  let merged := Json.Members.overlay (Json.Members.overlay (heading record) context) record.fields
  match record.cause with
  | none => merged
  | some cause => Json.Members.put merged "error" (causeObject showsTrace cause)

/-- The fields of a context that a reader is shown. -/
def shownNames : List String :=
  ["expr", "mode", "frames", "samples"]

/-- The shown part of a context, if there is one. -/
def shownContext (context : Fields) : List Char :=
  let shown := shownNames.filterMap fun name =>
    match Json.Members.get? context name with
    | some value =>
        if isGiven value then some (name.toList ++ '=' :: (plainText value).toList) else none
    | none => none
  if shown.isEmpty then []
  else ' ' :: ' ' :: '[' :: (Json.separated [',', ' '] shown ++ [']'])

/-- A text filled up with blanks. -/
def padded (width : Nat) (cs : List Char) : List Char :=
  cs ++ List.replicate (width - cs.length) ' '

/-- The logger and the message. -/
def sourceChars (record : Record) : List Char :=
  record.logger.toList ++ ':' :: ' ' :: record.message.toList

/-- The line that shows the error of a record. -/
def traceChars (record : Record) : List Char :=
  match record.cause with
  | none => []
  | some cause => '\n' :: cause.trace.toList

/-- The error of a record on a line of its own behind a text that may have ended its last line. -/
def withTrace (cs : List Char) (record : Record) : List Char :=
  if cs.getLast? = some '\n' then cs ++ (traceChars record).drop 1 else cs ++ traceChars record

def text (layout : Layout) (context : Fields) (record : Record) : String :=
  match layout with
  | .object showsTrace => Json.compact (.object (members showsTrace context record))
  | .brief =>
      String.ofList
        (record.clock.timeOfDay '.' ++ ' ' :: padded 5 record.level.text.toList
          ++ ' ' :: sourceChars record ++ shownContext context ++ traceChars record)
  | .plain =>
      String.ofList <| withTrace
        (record.clock.dateAndTime ',' ++ ' ' :: (record.level.text.toList
          ++ ' ' :: sourceChars record)) record
  | .bare => String.ofList (withTrace record.message.toList record)

end Layout

end Wavetable.Journal
