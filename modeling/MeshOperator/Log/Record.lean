import MeshOperator.Data.Template
import MeshOperator.Time.Clock

/-!
# Log records

A record is what one call of the log leaves: a time, a level, the name of the log, a message and
fields. `Record.line` writes it as one line of JSON: the time, the level, the name and the message
first, then the fields that say what it is about, then the others in their order.
-/

namespace MeshOperator.Log

/-- The levels at which the operator writes. -/
inductive Level where
  | debug
  | info
  | warning
  | error
deriving DecidableEq, Repr

namespace Level

/-- the rank of a level -/
def number : Level → Int
  | .debug => 10
  | .info => 20
  | .warning => 30
  | .error => 40

end Level

/-- the name of a rank -/
def levelName (n : Int) : String :=
  if n = 10 then "DEBUG"
  else if n = 20 then "INFO"
  else if n = 30 then "WARNING"
  else if n = 40 then "ERROR"
  else if n = 50 then "CRITICAL"
  else if n = 0 then "NOTSET"
  else "Level " ++ String.ofList (integerText n)

/-- What a record reports as an exception: an exception by its text, or data set in its place. -/
inductive Report where
  | text (s : String)
  | data (d : Data)
deriving Repr

/-- A log record. Each part of its own is there, unless all of them were replaced together. -/
structure Record where
  created : Option Data
  level : Option Data
  logger : Option Data
  message : Option Data
  arguments : Option Arguments := some (.items [])
  report : Option Report := some (.data .null)
  fields : List (Data × Data) := []
deriving Repr

/-- the fields that say what a record is about, in the order in which they are written -/
def aboutFields : List String := ["controller", "resource", "uid", "event", "reason"]

/-- What every record has of its own, under the names that no field may have, by version 3.11 of the
library that makes the records. From 3.12 on there is one more, `taskName`. -/
def ownNames : List String := [
  "name", "msg", "args", "levelname", "levelno", "pathname", "filename", "module", "exc_info",
  "exc_text", "stack_info", "lineno", "funcName", "created", "msecs", "relativeCreated", "thread",
  "threadName", "processName", "process", "message", "asctime"]

/-- what is written where an exception is asked for and there is none -/
def noTrouble : String := "NoneType: None"

/-- an exception by its kind and its message -/
def troubleText (kind message : String) : String :=
  if message = "" then kind else kind ++ ": " ++ message

/-- The text of what is reported as an exception, none for what counts as no. Data in the place of an
exception is asked for its third item and shows that there is none, if it is long enough and all but
the first item are null. -/
def Report.text? : Report → Except Fault (Option String)
  | .text s => .ok (some s)
  | .data d =>
    if !d.truthy then .ok none
    else
      match d with
      | .list (_ :: .null :: .null :: _) => .ok (some noTrouble)
      | .list (_ :: _ :: _ :: _) => .error .lacking
      | .list _ => .error .shortList
      | .text s => .error (if s.length < 3 then .shortText else .lacking)
      | .dict _ => .error (.missing (.int 2))
      | _ => .error .unsuitable

/-- the arguments of a call: a single mapping that is not empty fills places by their keys -/
def argumentsOf (d : Data) : Arguments :=
  match d with
  | .list [.dict (e :: es)] | .tuple [.dict (e :: es)] => .single (.dict (e :: es))
  | .list ds | .tuple ds => .items ds
  | .dict es => .single (.dict es)
  | _ => .items []

/-- what a clock shows that stands at data, which must be a number -/
def clockTimeOf (d : Data) : Except Fault ClockTime :=
  match d with
  | .int n => orFault .calendar (ClockTime.ofInteger n)
  | .bool b => orFault .calendar (ClockTime.ofInteger (if b then 1 else 0))
  | .double d => orFault .calendar (ClockTime.ofDouble d)
  | _ => .error .unsuitable

namespace Record

/-- The record whose parts are the entries of a mapping. Those that are not part of every record are
its fields. -/
def ofEntries (es : List (Data × Data)) : Record where
  created := Data.lookup? "created" es
  level := Data.lookup? "levelname" es
  logger := Data.lookup? "name" es
  message := Data.lookup? "msg" es
  arguments := (Data.lookup? "args" es).map .single
  report := (Data.lookup? "exc_info" es).map .data
  fields := es.filter fun e =>
    match e.1 with
    | .text k => !ownNames.contains k
    | _ => true

/-- The record with something set. What a record has of its own is changed, all else is a field. All
parts can be replaced by those of a mapping; what kind of thing a record is cannot be changed. -/
def set (r : Record) (name : String) (value : Data) : Except Fault Record :=
  if name = "__dict__" then
    match value with
    | .dict es => .ok (ofEntries es)
    | _ => .error .unsuitable
  else if name = "__class__" then .error .unsuitable
  else if name = "__weakref__" then .error .lacking
  else if name = "name" then .ok { r with logger := some value }
  else if name = "msg" then .ok { r with message := some value }
  else if name = "args" then .ok { r with arguments := some (.single value) }
  else if name = "levelname" then .ok { r with level := some value }
  else if name = "exc_info" then .ok { r with report := some (.data value) }
  else if name = "created" then .ok { r with created := some value }
  else if ownNames.contains name then .ok r
  else .ok { r with fields := Data.withEntry name value r.fields }

/-- a part that a record must have -/
def part {α : Type} : Option α → Except Fault α
  | some a => .ok a
  | none => .error .lacking

/-- the name under which every record gives its message, and which a field can take from it -/
def messageName : String := "getMessage"

/-- the message with its places filled; without arguments it stands as it is -/
def text (r : Record) : Except Fault String := do
  if (Data.lookup? messageName r.fields).isSome then throw .unsuitable
  let message := (← part r.message).plainText
  let arguments ← part r.arguments
  if arguments.isEmpty then return message else Template.fill message arguments

/-- the entries of a record's line -/
def entries (r : Record) : Except Fault (List (Data × Data)) := do
  let time ← orFault .calendar (← clockTimeOf (← part r.created)).logText
  let level ← part r.level
  let logger ← part r.logger
  let message ← r.text
  let start := [("timestamp", Data.text time), ("level", level), ("logger", logger),
    ("message", .text message)]
  let about := aboutFields.filterMap fun f => (Data.lookup? f r.fields).map fun d => (f, d)
  let rest := aboutFields.foldl (fun es f => Data.without f es) r.fields
  let all := rest.foldl (fun es e =>
    match e.1 with
    | .text k => Data.withEntry k e.2 es
    | _ => es) ((start ++ about).map fun e => (Data.text e.1, e.2))
  return match ← (← part r.report).text? with
    | none => all
    | some t => Data.withEntry "exception" (.text t) all

/-- the line of a record -/
def line (r : Record) : Except Fault String := do
  match Data.json (.dict (← r.entries)) with
  | .ok s => return String.ofList s
  | .error .key => throw .unsuitable
  | .error .circular => throw .circular
  | .error .tooLong => throw (.number .tooLong)

end Record

end MeshOperator.Log
