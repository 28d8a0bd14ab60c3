import MeshOperator.Text.Cut
import MeshOperator.Text.Digit

/-!
# Tags of YAML nodes

The tag of a node says what it is read as. A plain scalar without one is tagged by its spelling:
`Tag.ofSpelling` knows the spellings of null, truth values, integers, numbers, dates and moments,
and of the two keys with a meaning of their own.
-/

namespace MeshOperator.Yaml

/-- What a node is read as. -/
inductive Tag where
  | null
  | bool
  | int
  | float
  | text
  | binary
  | timestamp
  | sequence
  | mapping
  | set
  | orderedMap
  | pairs
  /-- the key that merges other mappings -/
  | merge
  /-- the key that stands for the value of the mapping -/
  | default
  | unknown (name : String)
deriving DecidableEq, Repr, Inhabited

/-- what the tags of the language begin with -/
def tagBase : String := "tag:yaml.org,2002:"

/-- the names of the tags of the language -/
def tagNames : List (String × Tag) :=
  [("null", .null), ("bool", .bool), ("int", .int), ("float", .float), ("str", .text),
    ("binary", .binary), ("timestamp", .timestamp), ("seq", .sequence), ("map", .mapping),
    ("set", .set), ("omap", .orderedMap), ("pairs", .pairs), ("merge", .merge),
    ("value", .default)]

/-- the tag of a full name -/
def Tag.ofName (name : String) : Tag :=
  match tagNames.find? fun t => tagBase ++ t.1 = name with
  | some t => t.2
  | none => .unknown name

/-- the short name of a tag in a written text -/
def Tag.shortName (t : Tag) : String :=
  match tagNames.find? fun n => n.2 = t with
  | some n => "!!" ++ n.1
  | none => ""

/-! ### Spellings -/

/-- takes off a sign -/
def dropSign : List Char → List Char
  | c :: s => if c = '-' || c = '+' then s else c :: s
  | [] => []

/-- digits and underscores, the first a digit -/
def isDigits (s : List Char) : Bool :=
  (s.head?.map isDigit).getD false && s.all fun c => isDigit c || c = '_'

/-- an exponent with its sign, or nothing -/
def isExponent : List Char → Bool
  | [] => true
  | e :: sign :: ds =>
    (e = 'e' || e = 'E') && (sign = '-' || sign = '+') && !ds.isEmpty && ds.all isDigit
  | _ => false

/-- a part of a number in base sixty after the first: one digit, or two up to fifty-nine -/
def isSixtieth : List Char → Bool
  | [a] => isDigit a
  | [a, b] => isDigit a && a.toNat ≤ 0x35 && isDigit b
  | _ => false

/-- the spelling of an integer -/
def isIntSpelling (s : List Char) : Bool :=
  let s := dropSign s
  match s with
  | ['0'] => true
  | '0' :: 'b' :: ds => !ds.isEmpty && ds.all fun c => c = '0' || c = '1' || c = '_'
  | '0' :: 'x' :: ds => !ds.isEmpty && ds.all fun c => (digitOfBase? 16 c).isSome || c = '_'
  | '0' :: ds => !ds.isEmpty && ds.all fun c => (digitOfBase? 8 c).isSome || c = '_'
  | _ =>
    match Text.cut ':' s with
    | [] => false
    | p :: ps => isDigits p && ps.all isSixtieth

/-- the fraction of a number, with an exponent -/
def isFraction (s : List Char) : Bool :=
  isExponent (s.dropWhile fun c => isDigit c || c = '_')

/-- the spelling of a number with a point -/
def isFloatSpelling (s : List Char) : Bool :=
  let body := dropSign s
  let named (names : List String) (x : List Char) : Bool := names.contains (String.ofList x)
  match Text.cutFirst? '.' body with
  | none => false
  | some (whole, fraction) =>
    if whole.isEmpty then
      named ["inf", "Inf", "INF"] fraction
        || (body = s && (named ["nan", "NaN", "NAN"] fraction
          || ((fraction.head?.map isDigit).getD false && isFraction fraction)))
    else
      match Text.cut ':' whole with
      | [p] => isDigits p && isFraction fraction
      | p :: ps => isDigits p && ps.all isSixtieth && fraction.all fun c => isDigit c || c = '_'
      | [] => false

/-- the spelling of a truth value -/
def isBoolSpelling (s : List Char) : Bool :=
  ["yes", "Yes", "YES", "no", "No", "NO", "true", "True", "TRUE", "false", "False", "FALSE",
    "on", "On", "ON", "off", "Off", "OFF"].contains (String.ofList s)

/-- the spelling of null, apart from the empty one -/
def isNullSpelling (s : List Char) : Bool :=
  ["~", "null", "Null", "NULL"].contains (String.ofList s)

/-! ### Dates and moments -/

/-- The parts of a written date or moment: the digits of the date, and for a moment the time of
day, the fraction, if there is one, and the offset. -/
structure TimestampParts where
  year : List Char
  month : List Char
  day : List Char
  time : Option (List Char × List Char × List Char × Option (List Char) × Option (List Char))
deriving Repr

/-- the first `low` to `high` digits and what follows -/
def takeDigits? (low high : Nat) (s : List Char) : Option (List Char × List Char) :=
  let ds := (s.take high).takeWhile isDigit
  if low ≤ ds.length then some (ds, s.drop ds.length) else none

/-- takes off a character -/
def expect? (c : Char) : List Char → Option (List Char)
  | d :: s => if c = d then some s else none
  | [] => none

/-- whether this is an offset: `Z`, or a sign and hours, perhaps with minutes -/
def isOffset : List Char → Bool
  | ['Z'] => true
  | sign :: s =>
    (sign = '-' || sign = '+') &&
      match takeDigits? 1 2 s with
      | none => false
      | some (_, []) => true
      | some (_, ':' :: m) => m.length = 2 && m.all isDigit
      | some _ => false
  | [] => false

/-- the parts of a written date or moment, as far as its form allows -/
def timestampParts? (s : List Char) : Option TimestampParts := do
  let (year, s) ← takeDigits? 4 4 s
  let s ← expect? '-' s
  let (month, s) ← takeDigits? 1 2 s
  let s ← expect? '-' s
  let (day, s) ← takeDigits? 1 2 s
  match s with
  | [] => return ⟨year, month, day, none⟩
  | c :: rest =>
    let rest ←
      if c = 'T' || c = 't' then some rest
      else if c = ' ' || c = '\t' then some (rest.dropWhile fun x => x = ' ' || x = '\t')
      else none
    let (hour, s) ← takeDigits? 1 2 rest
    let s ← expect? ':' s
    let (minute, s) ← takeDigits? 2 2 s
    let s ← expect? ':' s
    let (second, s) ← takeDigits? 2 2 s
    let (fraction, s) :=
      match s with
      | '.' :: r => (some (r.takeWhile isDigit), r.dropWhile isDigit)
      | r => (none, r)
    match s.dropWhile fun x => x = ' ' || x = '\t' with
    | [] =>
      if s.isEmpty then return ⟨year, month, day, some (hour, minute, second, fraction, none)⟩
      else none
    | zone =>
      if isOffset zone then
        return ⟨year, month, day, some (hour, minute, second, fraction, some zone)⟩
      else none

/-- the spelling of a date or moment; a date alone has two digits for month and day -/
def isTimestampSpelling (s : List Char) : Bool :=
  match timestampParts? s with
  | none => false
  | some p => p.time.isSome || (p.month.length = 2 && p.day.length = 2)

/-- The tag that a spelling gives, a line feed at the end not counted. Nothing at all is null. -/
def Tag.ofSpelling (text : String) : Tag :=
  let s := text.toList
  let fits (p : List Char → Bool) : Bool := p s || (s.getLast? = some '\n' && p s.dropLast)
  if fits isBoolSpelling then .bool
  else if fits isFloatSpelling then .float
  else if fits isIntSpelling then .int
  else if fits (· = ['<', '<']) then .merge
  else if s.isEmpty || fits isNullSpelling then .null
  else if fits isTimestampSpelling then .timestamp
  else if fits (· = ['=']) then .default
  else if fits (fun s => s = ['!'] || s = ['&'] || s = ['*']) then .unknown (tagBase ++ "yaml")
  else .text

end MeshOperator.Yaml
