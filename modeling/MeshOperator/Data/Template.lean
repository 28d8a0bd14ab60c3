import MeshOperator.Data.Access

/-!
# Messages with places for data

A template is a text with places such as `%s` and `%5.1f`, which are filled with arguments in order,
or with the entries of a mapping where a place names a key. `Template.fill` refuses arguments that do
not fit the places or are left over.
-/

namespace MeshOperator

/-- What a template is filled with: data in order, or a single piece, which if it is a mapping can also
fill places by their keys. -/
inductive Arguments where
  | items (ds : List Data)
  | single (d : Data)
deriving Repr

/-- whether there is anything to fill a template with -/
def Arguments.isEmpty : Arguments → Bool
  | .items ds => ds.isEmpty
  | .single d => !d.truthy

namespace Template

/-- The data to come: those in order, or one piece that is used at most once. -/
inductive Supply where
  | items (ds : List Data)
  | single (d : Option Data)

/-- the next piece of data -/
def Supply.next : Supply → Except Fault (Data × Supply)
  | .items (d :: ds) => .ok (d, .items ds)
  | .single (some d) => .ok (d, .single none)
  | _ => .error .unsuitable

/-- the largest size of a text -/
def largestSize : Nat := Nat.pow 2 63 - 1

/-- the largest count of digits -/
def largestCount : Nat := Nat.pow 2 31 - 1

/-- A place of a template: its marks, the width it fills, its precision and its letter. -/
structure Place where
  left : Bool
  plus : Bool
  blank : Bool
  full : Bool
  zero : Bool
  width : Option Nat
  precision : Option Nat
  letter : Char

/-! ### Numbers in places -/

/-- a text with the small ASCII letters as capitals -/
def capitals (s : List Char) : List Char :=
  s.map fun c => if 0x61 ≤ c.toNat && c.toNat ≤ 0x7a then Char.ofNat (c.toNat - 0x20) else c

/-- the integer for a place that shows one; only the places in base ten drop a fraction -/
def integerFor (decimal : Bool) : Data → Except Fault Int
  | .int n => .ok n
  | .bool b => .ok (if b then 1 else 0)
  | .double d => if decimal then orFault .number d.toInteger else .error .unsuitable
  | _ => .error .unsuitable

/-- the number for a place that shows one -/
def doubleFor : Data → Except Fault Double
  | .double d => .ok d
  | .bool b => .ok (.ofInt (if b then 1 else 0))
  | .int n =>
    match Double.ofInt n with
    | .infinite _ => .error (.number .tooLargeForDouble)
    | d => .ok d
  | _ => .error .unsuitable

/-- a number without the zeros at the end of its fraction, and without a point at its end -/
def trimFraction (s : List Char) : List Char :=
  if s.contains '.' then
    let t := s.reverse.dropWhile (· = '0')
    ((if t.head? = some '.' then t.drop 1 else t)).reverse
  else s

/-- a finite magnitude with a number of leading digits, positionally unless it is small or has more
digits before its point; `full` keeps all digits -/
def generalText (mantissa : Nat) (exponent : Int) (count : Nat) (full : Bool) : List Char :=
  let count := max count 1
  let (ds, point) := Double.leadingDigits mantissa exponent count
  let keep (s : List Char) : List Char :=
    if full then if s.contains '.' then s else s ++ ['.'] else trimFraction s
  if -4 ≤ point - 1 ∧ point - 1 < count then
    if point ≤ 0 then
      keep ('0' :: '.' :: (List.replicate (-point).toNat '0' ++ ds))
    else keep (ds.take point.toNat ++ (if ds.length ≤ point.toNat then [] else '.' :: ds.drop point.toNat))
  else
    keep (ds.take 1 ++ (if ds.length ≤ 1 then [] else '.' :: ds.drop 1))
      ++ NumberLayout.powerText (point - 1)

/-- the magnitude of a number in a place of a letter -/
def magnitude (p : Place) (mantissa : Nat) (exponent : Int) : List Char :=
  let places := p.precision.getD 6
  if p.letter = 'f' || p.letter = 'F' then
    let s := Double.fixedText mantissa exponent places
    if p.full && places = 0 then s ++ ['.'] else s
  else if p.letter = 'e' || p.letter = 'E' then
    let s := Double.powerText mantissa exponent places
    if p.full && places = 0 then s.take 1 ++ '.' :: s.drop 1 else s
  else generalText mantissa exponent places p.full

/-- whether a number has a minus, and its magnitude in a place -/
def doubleParts (p : Place) (d : Double) : Bool × List Char :=
  let (negative, s) :=
    match d with
    | .nan => (false, "nan".toList)
    | .infinite negative => (negative, "inf".toList)
    | .finite negative mantissa exponent => (negative, magnitude p mantissa exponent)
  (negative, if p.letter = 'E' || p.letter = 'F' || p.letter = 'G' then capitals s else s)

/-- the digits of a natural in a base -/
def digitsIn (base n : Nat) : List Char := Nat.toDigits base n

/-- what stands before the digits of an integer, and the digits, in a place of a letter -/
def integerParts (p : Place) (n : Nat) : List Char × List Char :=
  let base := if p.letter = 'o' then 8 else if p.letter = 'x' || p.letter = 'X' then 16 else 10
  let s := digitsIn base n
  let s := List.replicate (p.precision.getD 0 - s.length) '0' ++ s
  let s := if p.letter = 'X' then capitals s else s
  (if p.full && base ≠ 10 then ['0', p.letter] else [], s)

/-! ### Filling a place -/

/-- a text filled up to the width of a place: after it, between what leads it and the rest, or before
it -/
def pad (p : Place) (zeros : Bool) (lead body : List Char) : List Char :=
  let gap := p.width.getD 0 - (lead.length + body.length)
  if p.left then lead ++ body ++ List.replicate gap ' '
  else if zeros then lead ++ List.replicate gap '0' ++ body
  else List.replicate gap ' ' ++ lead ++ body

/-- the sign of a number in a place -/
def signText (p : Place) (negative : Bool) : List Char :=
  if negative then ['-'] else if p.plus then ['+'] else if p.blank then [' '] else []

/-- a text in ASCII, all other characters by number -/
def inAscii (s : List Char) : List Char :=
  s.flatMap fun c => if c.toNat ≤ 0x7e then [c] else Text.numberEscape (codePoint c)

/-- the character for a place that shows one -/
def characterFor : Data → Except Fault Char
  | .text s =>
    match s.toList with
    | [c] => .ok c
    | _ => .error .unsuitable
  | d => do
    let n ← integerFor false d
    if 0 ≤ n ∧ n < 0x110000 then return ofCodePoint n.toNat else throw (.template .noCharacter)

/-- what stands in a place; `position` is that of its letter -/
def render (p : Place) (position : Nat) (d : Data) : Except Fault (List Char) := do
  let c := p.letter
  let text (s : List Char) : List Char :=
    pad p false [] (match p.precision with
      | some n => s.take n
      | none => s)
  if c = 's' then return text d.plainText.toList
  else if c = 'r' then return text d.shown
  else if c = 'a' then return text (inAscii d.shown)
  else if c = 'd' || c = 'i' || c = 'u' || c = 'o' || c = 'x' || c = 'X' then
    let n ← integerFor (c = 'd' || c = 'i' || c = 'u') d
    if largestCount - 3 < p.precision.getD 0 then throw (.template .precisionTooLarge)
    let (lead, body) := integerParts p n.natAbs
    return pad p p.zero (signText p (n < 0) ++ lead) body
  else if c = 'e' || c = 'E' || c = 'f' || c = 'F' || c = 'g' || c = 'G' then
    let (negative, body) := doubleParts p (← doubleFor d)
    return pad p p.zero (signText p negative) body
  else if c = 'c' then return pad p false [] [← characterFor d]
  else throw (.template (.unknownPlace c position))

/-! ### Reading places -/

/-- the key of a place, after its opening bracket, and what follows its closing one -/
def readKey : (depth : Nat) → List Char → Except Fault (List Char × List Char)
  | _, [] => .error (.template .incompleteKey)
  | depth, c :: s =>
    if c = ')' then
      match depth with
      | 0 => .ok ([], s)
      | depth + 1 => do
        let (k, rest) ← readKey depth s
        return (c :: k, rest)
    else do
      let (k, rest) ← readKey (if c = '(' then depth + 1 else depth) s
      return (c :: k, rest)

/-- the natural that digits stand for -/
def naturalOf (ds : List Char) : Nat := Literal.value 10 (ds.map fun d => d.toNat - 0x30)

/-- A width or precision: digits, or a star for the next piece of data, which must be an integer. It
is at most `largest`; digits past that are the fault `tooBig`, an integer past it `tooLarge`. -/
def readSize (largest : Nat) (tooBig tooLarge : Fault) (s : List Char) (supply : Supply) :
    Except Fault (Option Int × List Char × Supply) :=
  let checked (n : Int) : Except Fault Int :=
    if -(largest : Int) - 1 ≤ n ∧ n ≤ largest then .ok n else .error tooLarge
  match s with
  | '*' :: rest => do
    let (d, supply) ← supply.next
    match d with
    | .int n => return (some (← checked n), rest, supply)
    | .bool b => return (some (if b then 1 else 0), rest, supply)
    | _ => throw .unsuitable
  | _ =>
    let ds := s.takeWhile isDigit
    if ds.isEmpty then .ok (none, s, supply)
    else if largest < naturalOf ds then .error tooBig
    else .ok (some (naturalOf ds), s.dropWhile isDigit, supply)

/-- a width -/
def readWidth : List Char → Supply → Except Fault (Option Int × List Char × Supply) :=
  readSize largestSize (.template .widthTooBig) (.number .tooLargeForSize)

/-- a precision -/
def readPrecision : List Char → Supply → Except Fault (Option Int × List Char × Supply) :=
  readSize largestCount (.template .precisionTooBig) (.number .tooLargeForCount)

/-- the marks of a place -/
def isMark (c : Char) : Bool := c = '-' || c = '+' || c = ' ' || c = '#' || c = '0'

/-- a letter for the size of a number, which changes nothing -/
def dropSizeLetter : List Char → List Char
  | c :: s => if c = 'h' || c = 'l' || c = 'L' then s else c :: s
  | [] => []

/-- a place, after its percent sign and key, and what follows it -/
def readPlace (s : List Char) (supply : Supply) : Except Fault (Place × List Char × Supply) := do
  let marks := s.takeWhile isMark
  let (width, s, supply) ← readWidth (s.dropWhile isMark) supply
  let (precision, s, supply) ←
    match s with
    | '.' :: rest => do
      let (n, s, supply) ← readPrecision rest supply
      .ok (some (n.getD 0).toNat, s, supply)
    | s => .ok (none, s, supply)
  match dropSizeLetter s with
  | [] => throw (.template .incomplete)
  | letter :: rest =>
    let place : Place := {
      left := marks.contains '-' || (width.getD 0) < 0
      plus := marks.contains '+'
      blank := marks.contains ' '
      full := marks.contains '#'
      zero := marks.contains '0'
      width := width.map Int.natAbs
      precision
      letter }
    return (place, rest, supply)

/-- What places with keys are looked up in: nothing, a mapping, or a list, which has no keys. -/
inductive Lookup where
  | nothing
  | mapping (entries : List (Data × Data))
  | list

/-- what places with keys are looked up in -/
def Lookup.ofArguments : Arguments → Lookup
  | .single (.dict es) => .mapping es
  | .single (.list _) => .list
  | _ => .nothing

/-- the data under a key, after the opening bracket of the key, and what follows the closing one -/
def Lookup.find (l : Lookup) (s : List Char) : Except Fault (Data × List Char) :=
  match l with
  | .nothing => .error .unsuitable
  | .list => do
    let _ ← readKey 0 s
    throw .unsuitable
  | .mapping es => do
    let (k, rest) ← readKey 0 s
    match Data.lookup? (String.ofList k) es with
    | some d => return (d, rest)
    | none => throw (.missing (.text (String.ofList k)))

/-- whether data is left over that had to be used; what keys are looked up in need not be -/
def isLeftOver (l : Lookup) (supply : Supply) : Bool :=
  match l, supply with
  | .nothing, .items (_ :: _) | .nothing, .single (some _) => true
  | _, _ => false

/-- Fills the places of the rest of a template of `size` characters. `fuel` bounds the rest. -/
def fillFrom (size : Nat) (l : Lookup) :
    (fuel : Nat) → List Char → Supply → Except Fault (List Char)
  | 0, _, _ => .ok []
  | fuel + 1, s, supply =>
    match s with
    | [] => if isLeftOver l supply then .error .unsuitable else .ok []
    | '%' :: s => do
      let (s, supply) ←
        match s with
        | '(' :: rest => do
          let (d, s) ← l.find rest
          .ok (s, Supply.single (some d))
        | s => .ok (s, supply)
      let (p, rest, supply) ← readPlace s supply
      if p.letter = '%' then return '%' :: (← fillFrom size l fuel rest supply)
      else
        let (d, supply) ← supply.next
        let s ← render p (size - rest.length - 1) d
        return s ++ (← fillFrom size l fuel rest supply)
    | c :: s => do return c :: (← fillFrom size l fuel s supply)

/-- the data for the places without keys -/
def Supply.ofArguments : Arguments → Supply
  | .items ds => .items ds
  | .single d => .single (some d)

/-- a template with its places filled -/
def fill (template : String) (arguments : Arguments) : Except Fault String := do
  let s := template.toList
  let text ← fillFrom s.length (.ofArguments arguments) (s.length + 1) s (.ofArguments arguments)
  return String.ofList text

end Template

end MeshOperator
