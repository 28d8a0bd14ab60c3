import MeshOperator.Number.Layout
import MeshOperator.Text.Blank
import MeshOperator.Text.Quoted

/-!
# Reading written numbers

A written integer is a sign and digits of a base, a written number a sign and a decimal or the name
of infinity or not-a-number. Both may stand between blanks, take the digits of every script, and
allow a single underscore between two digits.

* `readInteger base text`: the integer, or why the text is none.
* `readDouble text`: the number, or why the text is none.
-/

namespace MeshOperator

/-- Why a number could not be read or turned into an integer. -/
inductive NumberFault where
  | notInteger (base : Nat) (text : List Char)
  | tooManyDigits (count : Nat)
  | notDouble (text : List Char)
  | infinityAsInteger
  | nanAsInteger
  /-- an integer is too long to be written in base ten -/
  | tooLong
  /-- an integer is past the largest number with a fraction -/
  | tooLargeForDouble
  /-- an integer is past the largest size of a text -/
  | tooLargeForSize
  /-- an integer is past the largest count -/
  | tooLargeForCount
deriving DecidableEq, Repr

/-- the most digits that an integer of a base other than a power of two may have -/
def maxDigits : Nat := 4300

/-- an integer of as many bits as this is still short enough to be written in base ten -/
def writableBits : Nat := 14284

/-- whether an integer is short enough to be written in base ten -/
def isWritableInteger (n : Int) : Bool :=
  n.natAbs.log2 < writableBits || n.natAbs < Nat.pow 10 maxDigits

/-- the sentence for a number that could not be read -/
def NumberFault.message : NumberFault → String
  | .notInteger base text =>
    "invalid literal for int() with base " ++ String.ofList (decimalText base) ++ ": "
      ++ String.ofList ((Text.quoted text).take 200)
  | .tooManyDigits count =>
    "Exceeds the limit (" ++ String.ofList (decimalText maxDigits)
      ++ " digits) for integer string conversion: value has " ++ String.ofList (decimalText count)
      ++ " digits; use sys.set_int_max_str_digits() to increase the limit"
  | .notDouble text => "could not convert string to float: " ++ String.ofList (Text.quoted text)
  | .infinityAsInteger => "cannot convert float infinity to integer"
  | .nanAsInteger => "cannot convert float NaN to integer"
  | .tooLong =>
    "Exceeds the limit (" ++ String.ofList (decimalText maxDigits)
      ++ " digits) for integer string conversion; use sys.set_int_max_str_digits() to increase the limit"
  | .tooLargeForDouble => "int too large to convert to float"
  | .tooLargeForSize => "Python int too large to convert to C ssize_t"
  | .tooLargeForCount => "Python int too large to convert to C int"

namespace Literal

/-- a text with the digits of every script as `0` to `9`, and no blanks at its ends -/
def normalize (s : List Char) : List Char :=
  (Text.stripBy isNumberBlank s).map fun c =>
    match digitValue? c with
    | some v => hexDigit v
    | none => c

/-- takes off a sign; true for a minus -/
def sign : List Char → Bool × List Char
  | '-' :: s => (true, s)
  | '+' :: s => (false, s)
  | s => (false, s)

/-- The values of the digits of a base that a text begins with, single underscores between them, and
what follows. None when the digits begin or end with an underscore or have two in a row; `after` says
that the character before was a digit. -/
def digits? (base : Nat) : (after : Bool) → List Char → Option (List Nat × List Char)
  | after, [] => if after then some ([], []) else none
  | after, c :: s =>
    if c = '_' then if after then digits? base false s else none
    else
      match digitOfBase? base c with
      | some v => (digits? base true s).map fun p => (v :: p.1, p.2)
      | none => if after then some ([], c :: s) else none

/-- the natural that digits stand for, most significant first -/
def value (base : Nat) (ds : List Nat) : Nat := ds.foldl (fun n d => n * base + d) 0

/-- the letters that may follow a zero to name the base -/
def baseLetters : Nat → List Char
  | 2 => ['b', 'B']
  | 8 => ['o', 'O']
  | 16 => ['x', 'X']
  | _ => []

/-- takes off the name of the base, and an underscore after it -/
def dropBase (base : Nat) : List Char → List Char
  | '0' :: c :: '_' :: s => if (baseLetters base).contains c then s else '0' :: c :: '_' :: s
  | '0' :: c :: s => if (baseLetters base).contains c then s else '0' :: c :: s
  | s => s

end Literal

/-- The integer that a text writes in a base. That there are too many digits is found before what
follows them. -/
def readInteger (base : Nat) (text : List Char) : Except NumberFault Int :=
  let (negative, s) := Literal.sign (Literal.normalize text)
  match Literal.digits? base false (Literal.dropBase base s) with
  | none => .error (.notInteger base text)
  | some (ds, rest) =>
    if base = 10 ∧ maxDigits < ds.length then .error (.tooManyDigits ds.length)
    else if rest ≠ [] then .error (.notInteger base text)
    else
      let n : Int := Literal.value base ds
      .ok (if negative then -n else n)

namespace Literal

/-- whether each underscore stands between two digits; `previous` is the character before -/
def underscoresFit : (previous : Char) → List Char → Bool
  | previous, [] => previous ≠ '_'
  | previous, c :: s =>
    (if c = '_' then isDigit previous else previous ≠ '_' || isDigit c) && underscoresFit c s

/-- the small letter of an ASCII capital -/
def lowerAscii (c : Char) : Char :=
  if 0x41 ≤ c.toNat && c.toNat ≤ 0x5a then Char.ofNat (c.toNat + 0x20) else c

/-- an exponent: nothing, or `e` with a signed run of digits -/
def exponent? : List Char → Option Int
  | [] => some 0
  | c :: s =>
    if c = 'e' || c = 'E' then
      let (negative, ds) := sign s
      if ds.isEmpty || !ds.all isDigit then none
      else
        let n : Int := value 10 (ds.map fun d => d.toNat - 0x30)
        some (if negative then -n else n)
    else none

/-- a decimal: digits, perhaps with a point among them, and perhaps an exponent -/
def decimal? (s : List Char) : Option (Nat × Int) :=
  let whole := s.takeWhile isDigit
  let rest := s.dropWhile isDigit
  let (fraction, rest) :=
    match rest with
    | '.' :: r => (r.takeWhile isDigit, r.dropWhile isDigit)
    | r => ([], r)
  if whole.isEmpty && fraction.isEmpty then none
  else
    (exponent? rest).map fun e =>
      (value 10 ((whole ++ fraction).map fun d => d.toNat - 0x30), e - fraction.length)

end Literal

/-- the number that a text writes -/
def readDouble (text : List Char) : Except NumberFault Double :=
  let s := Literal.normalize text
  let (negative, body) := Literal.sign (s.filter (· ≠ '_'))
  let lowered := String.ofList (body.map Literal.lowerAscii)
  if !Literal.underscoresFit 'x' s then .error (.notDouble text)
  else if lowered = "inf" || lowered = "infinity" then .ok (.infinite negative)
  else if lowered = "nan" then .ok .nan
  else
    match Literal.decimal? body with
    | some (digits, exponent) => .ok (Double.ofDecimal negative digits exponent)
    | none => .error (.notDouble text)

/-- the integer part of a number -/
def Double.toInteger : Double → Except NumberFault Int
  | .nan => .error .nanAsInteger
  | .infinite _ => .error .infinityAsInteger
  | d => .ok (d.truncate?.getD 0)

end MeshOperator
