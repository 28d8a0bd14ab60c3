import MeshOperator.Log.Record

/-!
# Writing to the log

`Log.writeTo` makes the record of one call, and `Log.write` that of one to the operator's log. Fields that
are null are left out, a call below the threshold leaves nothing, and a field may not have the name of what
every record has of its own. `Log.lines` gives the lines of a call: none also for a record that cannot be
written, which is not told to the caller. A threshold of zero is none, and that of the log above is in force.
-/

namespace MeshOperator.Log

/-- the name of the operator's log -/
def operatorLog : String := "istio-operator"

/-- the names of a call's own parameters, which no field can have -/
def parameterNames : List String := ["self", "message", "level"]

/-- the name under which a log writes: what has no name is the log above all others -/
def logName (log : String) : String := if log = "" then "root" else log

/-- a record of a log -/
def recordOf (log : String) (created : Double) (level : Level) (message : String)
    (fields : List (String × Data)) : Record where
  created := some (.double created)
  level := some (.text (levelName level.number))
  logger := some (.text log)
  message := some (.text message)
  fields := (fields.filter fun f => !f.2.isNull).map fun f => (.text f.1, f.2)

/-- a record of the operator's log -/
def operatorRecord (created : Double) (level : Level) (message : String)
    (fields : List (String × Data)) : Record := recordOf operatorLog created level message fields

/-- the threshold in force: without one of its own, that of the log above, which is for warnings -/
def thresholdInForce (threshold : Int) : Int :=
  if threshold = 0 then Level.warning.number else threshold

/-- The record of one call to a log, if it reaches the threshold. `trouble` is the text of the exception that is
being handled. -/
def writeTo (log : String) (created : Double) (trouble : String) (threshold : Int) (level : Level)
    (message : String) (fields : List (String × Data)) : Except Fault (Option Record) :=
  if fields.any fun f => parameterNames.contains f.1 then .error .unsuitable
  else if level.number < threshold then .ok none
  else
    let asked := fields.any fun f => f.1 = "exc_info" && f.2.truthy
    let r := recordOf (logName log) created level message (fields.filter fun f => f.1 ≠ "exc_info")
    match fields.find? fun f => f.1 ≠ "exc_info" && !f.2.isNull && ownNames.contains f.1 with
    | some f => .error (.reserved f.1)
    | none => .ok (some (if asked then { r with report := some (.text trouble) } else r))

/-- The lines that one call to a log leaves. -/
def lines (log : String) (created : Double) (trouble : String) (threshold : Int) (level : Level)
    (message : String) (fields : List (String × Data)) : Except Fault (List String) := do
  let r ← writeTo log created trouble threshold level message fields
  return (r.bind fun r => r.line.toOption).toList

/-- The record of one call to the operator's log, if it reaches the threshold. -/
def write (created : Double) (threshold : Int) (level : Level) (message : String)
    (fields : List (String × Data)) : Except Fault (Option Record) :=
  writeTo operatorLog created noTrouble (thresholdInForce threshold) level message fields

end MeshOperator.Log
