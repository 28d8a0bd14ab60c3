import MeshOperator.Revision.Condition

/-!
# Status of a revision

What the operator writes about a revision: the generation it has seen, the conditions in order and
the state.

* `Status.put`: a condition under its type; the time of its last change stays when its status does.
* `Status.compute`: both conditions, the generation and the state that follows.
* `Status.timed`: the same with a clock, which is read only where a condition changes.
-/

namespace MeshOperator

/-- The status of a revision. -/
structure Status where
  generation : Int := 0
  conditions : List Condition := []
  state : Data := .text ""
deriving Repr, Inhabited

namespace Status

/-- the status that an object holds; nothing means an empty one -/
def ofData (d : Data) : Except Fault Status := do
  let d := d.orElse (.dict [])
  let generation ← (← d.entryOrElse "observedGeneration" (.int 0)).toInteger
  let conditions ← (← (← d.entryOrElse "conditions" (.list [])).members).mapM Condition.ofData
  let state ← d.entryOrElse "state" (.text "")
  return { generation, conditions, state }

/-- the form in an object -/
def toData (s : Status) : Data :=
  .object [("observedGeneration", .int s.generation),
    ("conditions", .list (s.conditions.map Condition.toData)), ("state", s.state)]

/-- equality of all parts -/
def same (a b : Status) : Bool :=
  a.generation = b.generation
    && Data.testsHold (a.conditions.map Condition.same) b.conditions && a.state.same b.state

/-- the first condition of a type, if there is one -/
def find? (s : Status) (type : Data) : Option Condition :=
  s.conditions.find? fun c => c.type.same type

/-- the first condition of a type, or one about which nothing is known -/
def condition (s : Status) (type : Data) : Condition := (s.find? type).getD { type }

/-- conditions with every one of the type of `c` replaced by it, or with `c` added -/
def replaceOrAdd (c : Condition) (cs : List Condition) : List Condition :=
  if cs.any fun d => d.type.same c.type then cs.map fun d => if d.type.same c.type then c else d
  else cs ++ [c]

/-- The time of change that a condition gets: that of the condition in its place when their statuses
are equal, else `now`. -/
def changeTime (s : Status) (c : Condition) (now : Data) : Data :=
  match s.find? c.type with
  | some d => if d.status.same c.status then d.since else now
  | none => now

/-- the status with a condition under its type -/
def put (s : Status) (c : Condition) (now : Data) : Status :=
  { s with conditions := replaceOrAdd { c with since := s.changeTime c now } s.conditions }

/-- the status with both conditions, a generation and the state that follows -/
def compute (s : Status) (generation : Int) (reconciled ready : Condition) (now : Data) : Status :=
  { (({ s with generation := generation }.put reconciled now).put ready now) with
    state := stateOf reconciled ready }

/-- whether a condition has another status than the one of its type, or is new -/
def flips (s : Status) (c : Condition) : Bool :=
  match s.find? c.type with
  | some d => !d.status.same c.status
  | none => true

/-- A change of the status at the time of a clock. A clock that cannot be read is a fault only if the
time is needed. -/
def timed (needed : Bool) (clock : Except Fault Data) (change : Data → Status) :
    Except Fault Status :=
  if needed then clock.map change else .ok (change .null)

/-- the status with a condition, at the time of a clock -/
def putTimed (s : Status) (c : Condition) (clock : Except Fault Data) : Except Fault Status :=
  timed (s.flips c) clock (s.put c)

/-- the status with both conditions, a generation and the state that follows, at the time of a clock -/
def computeTimed (s : Status) (generation : Int) (reconciled ready : Condition)
    (clock : Except Fault Data) : Except Fault Status :=
  timed (s.flips reconciled || (s.put reconciled .null).flips ready) clock
    (s.compute generation reconciled ready)

end Status

end MeshOperator
