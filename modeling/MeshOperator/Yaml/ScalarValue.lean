import MeshOperator.Number.Literal
import MeshOperator.Text.Base64
import MeshOperator.Text.SmallLetter
import MeshOperator.Values.Store
import MeshOperator.Yaml.Tag

/-!
# What scalars mean

The value of a scalar's text under each tag: integers of several bases and of base sixty, numbers,
truth values, dates and moments, and bytes in base 64.
-/

namespace MeshOperator.Yaml

/-- a text without the underscores that group digits -/
def ungrouped (s : List Char) : List Char := s.filter (· ≠ '_')

/-- takes off a sign, true for a minus; there must be something to read -/
def takeSign : List Char → Except Fault (Bool × List Char)
  | [] => .error .shortText
  | c :: s =>
    if c = '-' then .ok (true, s) else if c = '+' then .ok (false, s) else .ok (false, c :: s)

/-- an integer of a base, as a fault of reading if it is none -/
def integerOf (base : Nat) (s : List Char) : Except Fault Int := orFault .number (readInteger base s)

/-- The integer that a text means: binary, hexadecimal and octal by what it begins with, parts
between colons in base sixty, all else decimal. -/
def integerValue (text : List Char) : Except Fault Int := do
  let (negative, s) ← takeSign (ungrouped text)
  let n ←
    match s with
    | [] => .error .shortText
    | ['0'] => .ok 0
    | '0' :: 'b' :: ds => integerOf 2 ds
    | '0' :: 'x' :: ds => integerOf 16 ds
    | '0' :: _ => integerOf 8 s
    | _ =>
      if s.contains ':' then do
        let parts ← (Text.cut ':' s).mapM (integerOf 10)
        .ok (parts.foldl (fun n d => n * 60 + d) 0)
      else integerOf 10 s
  return if negative then -n else n

/-- The sum of parts in base sixty, the last first; `unit` is what one of the first part counts for. A
part so far from the last that its unit is past the numbers is a fault, even if it is zero. -/
def sixtiethsSum (total : Double) (unit : Nat) : List Double → Except Fault Double
  | [] => .ok total
  | d :: ds =>
    match Double.ofInt unit with
    | .infinite _ => .error (.number .tooLargeForDouble)
    | u => sixtiethsSum (total.add (d.mul u)) (unit * 60) ds

/-- whether a text means not-a-number by its name, with or without a sign -/
def isNanName (text : List Char) : Bool :=
  match takeSign (Text.smallLetters (ungrouped text)) with
  | .ok (_, s) => s = ['.', 'n', 'a', 'n']
  | .error _ => false

/-- the number that a text means: infinity and not-a-number by name, parts between colons in base
sixty, all else decimal -/
def doubleValue (text : List Char) : Except Fault Double := do
  let (negative, s) ← takeSign (Text.smallLetters (ungrouped text))
  if isNanName text then return .nan
  let d ←
    if s = ['.', 'i', 'n', 'f'] then .ok (.infinite false)
    else if s.contains ':' then do
      let parts ← (Text.cut ':' s).mapM fun p => orFault .number (readDouble p)
      sixtiethsSum (.zero false) 1 parts.reverse
    else orFault .number (readDouble s)
  return if negative then d.negate else d

/-- the truth value that a text means, in letters of either case -/
def boolValue (text : List Char) : Except Fault Bool :=
  let s := String.ofList (Text.smallLetters text)
  if ["yes", "true", "on"].contains s then .ok true
  else if ["no", "false", "off"].contains s then .ok false
  else .error (.missing (.text s))

/-- the natural that ASCII digits stand for -/
def naturalOf (ds : List Char) : Nat := Literal.value 10 (ds.map fun d => d.toNat - 0x30)

/-- the minutes that a written offset is ahead of universal time -/
def offsetMinutes : List Char → Except Fault Int
  | sign :: s =>
    if sign = '-' || sign = '+' then do
      let (hours, minutes) := (Text.cutFirst? ':' s).getD (s, [])
      let n : Int := naturalOf hours * 60 + naturalOf minutes
      orFault .calendar (Moment.checkOffset (if sign = '-' then -n else n))
    else .ok 0
  | [] => .ok 0

/-- the microseconds of a fraction, of which six digits count -/
def microseconds (fraction : List Char) : Nat :=
  let ds := fraction.take 6
  naturalOf (ds ++ List.replicate (6 - ds.length) '0')

/-- the date or moment that a text means; a line feed at its end does not count -/
def timestampValue (text : List Char) : Except Fault Cell := do
  let parts :=
    (timestampParts? text).or
      (if text.getLast? = some '\n' then timestampParts? text.dropLast else none)
  match parts with
  | none => .error .lacking
  | some p =>
    let date := Date.make (naturalOf p.year) (naturalOf p.month) (naturalOf p.day)
    match p.time with
    | none => return .date (← orFault .calendar date)
    | some (hour, minute, second, fraction, zone) =>
      let offset ← zone.mapM offsetMinutes
      let day ← orFault .calendar date
      let m := Moment.make day (naturalOf hour) (naturalOf minute) (naturalOf second)
        (microseconds (fraction.getD [])) offset
      return .moment (← orFault .calendar m)

/-- the bytes that a text in base 64 means; it must be in ASCII -/
def bytesValue (text : List Char) : Except Fault (List UInt8) :=
  if text.all fun c => c.toNat < 0x80 then
    match Base64.decode? text with
    | some b => .ok b
    | none => .error .yaml
  else .error .yaml

end MeshOperator.Yaml
