import MeshOperator.Data.Json
import MeshOperator.Number.Literal
import MeshOperator.Text.Utf8

/-!
# Faults

Why an operation stops without an answer. `Fault.message` is the sentence for a fault, which ends up
in conditions, events and log lines.
-/

namespace MeshOperator

/-- Why an environment makes no configuration. -/
inductive ConfigFault where
  | workers (count : Int)
  | backoff (base max : Double)
deriving DecidableEq, Repr

/-- Why the places of a template cannot be filled. -/
inductive TemplateFault where
  /-- the template ends within a place -/
  | incomplete
  /-- the template ends within the key of a place -/
  | incompleteKey
  /-- a place has a letter that means nothing, at a position of the template -/
  | unknownPlace (letter : Char) (position : Nat)
  /-- the width of a place is past the largest size of a text -/
  | widthTooBig
  /-- the precision of a place is past the largest count -/
  | precisionTooBig
  /-- an integer is to be shown with nearly as many digits as there are counts -/
  | precisionTooLarge
  /-- a place for a character is given a number that no character has -/
  | noCharacter
deriving DecidableEq, Repr

/-- Why an operation stops without an answer. -/
inductive Fault where
  /-- a values path holds something of another kind than the expected one -/
  | values (path expected : String) (actual : Data)
  /-- the revision's spec cannot be reconciled as it is -/
  | spec (detail : String)
  /-- a chart could not be installed or uninstalled -/
  | chart (chart operation detail : String)
  /-- a workload could not be read -/
  | readiness (detail : String)
  /-- the API answered with a status other than success -/
  | api (status reason : Data)
  /-- the API did not answer, or failed in a way that is told by its words alone -/
  | connection (detail : String)
  /-- the program may not be run -/
  | forbidden (program : String)
  | number (fault : NumberFault)
  | calendar (fault : CalendarFault)
  | config (fault : ConfigFault)
  | utf8 (failure : Utf8.Failure)
  /-- a mapping has no entry under a key -/
  | missing (key : Data)
  /-- a log field has the name of an attribute that every record has -/
  | reserved (name : String)
  | template (fault : TemplateFault)
  /-- a text ends before the character that it is asked for -/
  | shortText
  /-- a list ends before the item that it is asked for -/
  | shortList
  /-- a character was named by a number that no character has -/
  | noCharacter (code : Nat)
  /-- data is asked for something that its kind does not offer -/
  | lacking
  /-- data of the wrong kind is used -/
  | unsuitable
  /-- a value that holds itself has no text -/
  | circular
  /-- something is nested deeper than there is room for -/
  | tooDeep
  /-- a text is not YAML -/
  | yaml
  /-- there is no configuration for the cluster -/
  | noCluster (detail : String)
  /-- a reconcile failed and is tried again after a delay -/
  | requeue (cause : Fault) (delay : Double)
deriving Repr, Inhabited

/-- a number in a message -/
def Double.message (d : Double) : String := String.ofList (NumberLayout.plain.text d)

/-- the sentence for a refused configuration -/
def ConfigFault.message : ConfigFault → String
  | .workers count => "workers must be at least 1, got " ++ String.ofList (integerText count)
  | .backoff base max =>
    "backoff delays must satisfy 0 < base <= max, got base=" ++ base.message
      ++ " max=" ++ max.message

/-- the sentence for a template that cannot be filled -/
def TemplateFault.message : TemplateFault → String
  | .incomplete => "incomplete format"
  | .incompleteKey => "incomplete format key"
  | .unknownPlace c position =>
    let n := codePoint c
    let digits := if n < 16 then hexText 1 n else (hexText 6 n).dropWhile (· = '0')
    "unsupported format character '"
      ++ (if 31 ≤ n && n < 127 then String.singleton c else "?") ++ "' (0x" ++ String.ofList digits
      ++ ") at index " ++ String.ofList (decimalText position)
  | .widthTooBig => "width too big"
  | .precisionTooBig => "precision too big"
  | .precisionTooLarge => "precision too large"
  | .noCharacter => "%c arg not in range(0x110000)"

namespace Fault

/-- the sentence for a fault -/
def message : Fault → String
  | .values path expected actual =>
    path ++ ": expected " ++ expected ++ ", got " ++ actual.kindName
      ++ " (" ++ String.ofList actual.shown ++ ")"
  | .spec detail => detail
  | .chart name operation detail =>
    "failed to " ++ operation ++ " chart " ++ name ++ ": " ++ detail
  | .readiness detail => detail
  | .api status reason => "(" ++ status.plainText ++ ")\nReason: " ++ reason.plainText ++ "\n"
  | .connection detail => detail
  | .forbidden program =>
    "[Errno 13] Permission denied: " ++ String.ofList (Text.quoted program.toList)
  | .number fault => fault.message
  | .calendar fault => fault.message
  | .config fault => fault.message
  | .utf8 failure => failure.message
  | .missing key => String.ofList key.shown
  | .reserved name =>
    String.ofList (Text.quoted
      ("Attempt to overwrite " ++ String.ofList (Text.quoted name.toList) ++ " in LogRecord").toList)
  | .template fault => fault.message
  | .shortText => "string index out of range"
  | .shortList => "list index out of range"
  | .noCharacter code =>
    if code < Nat.pow 2 31 then "chr() arg not in range(0x110000)"
    else NumberFault.tooLargeForCount.message
  | .lacking => "the data does not offer what it is asked for"
  | .unsuitable => "the data is of the wrong kind"
  | .circular => "Circular reference detected"
  | .tooDeep => "maximum recursion depth exceeded"
  | .yaml => "the text is not YAML"
  | .noCluster detail => detail
  | .requeue cause _ => cause.message

/-- The fault that data is of another kind than the expected one, or that its text is too long to
say so. -/
def ofKind (path expected : String) (actual : Data) : Fault :=
  if actual.isWritable then .values path expected actual else .number .tooLong

end Fault

/-- lets a fault of one kind stand for a fault -/
def orFault {ε α : Type} (wrap : ε → Fault) : Except ε α → Except Fault α
  | .ok a => .ok a
  | .error e => .error (wrap e)

theorem orFault_eq_ok {ε α : Type} {wrap : ε → Fault} {r : Except ε α} {a : α} :
    orFault wrap r = .ok a ↔ r = .ok a := by
  cases r <;> simp [orFault]

/-! ### Answers in a row -/

section Answers

variable {ε α β : Type} {r : Except ε α} {f : α → Except ε β} {b : β} {e : ε}

theorem ok_bind (a : α) : (Except.ok a >>= f) = f a := rfl

theorem error_bind : ((Except.error e : Except ε α) >>= f) = .error e := rfl

theorem bind_eq_ok : r >>= f = .ok b ↔ ∃ a, r = .ok a ∧ f a = .ok b := by
  cases r <;> simp [bind, Except.bind]

theorem exists_of_isOk (h : r.isOk = true) : ∃ a, r = .ok a := by
  cases r with
  | ok a => exact ⟨a, rfl⟩
  | error e => cases h

theorem eq_ok_of_isOk {r : Except ε Unit} (h : r.isOk = true) : r = .ok () := by
  obtain ⟨⟨⟩, h⟩ := exists_of_isOk h
  exact h

end Answers

end MeshOperator
