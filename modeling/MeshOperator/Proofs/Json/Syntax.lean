import MeshOperator.Data.Basic
import MeshOperator.Number.Literal
import MeshOperator.Yaml.Cursor
import MeshOperator.Yaml.Node

/-!
# Texts of JSON

A text of JSON as the tree that its grammar makes of it, with every choice that the grammar leaves: the
white space between tokens, the notation of a number, the escapes of a string. From the tree follow the
text itself and the data that it denotes.

* `Document`: an object with the white space around it.
* `Document.text`, `Document.data`: what stands there, and what it denotes.
* `Document.isReadable`, `Document.reading`: whether a reader of YAML takes the text, and for what.
* `Document.isKept`: whether it takes the numbers for numbers.
-/

namespace MeshOperator.Json

/-! ### White space -/

/-- A character of white space. -/
inductive Blank where
  | space
  | tab
  | lineFeed
  | carriageReturn
deriving DecidableEq, Repr

/-- the character itself -/
def Blank.char : Blank → Char
  | space => ' '
  | tab => '\t'
  | lineFeed => '\n'
  | carriageReturn => '\r'

/-- White space between two tokens. -/
abbrev Gap := List Blank

namespace Gap

/-- what stands there -/
def text (g : Gap) : List Char := g.map Blank.char

/-- A reader of YAML passes no tabulators between tokens. -/
def isReadable (g : Gap) : Bool := g.all (· ≠ .tab)

end Gap

/-! ### Strings -/

/-- The letters that stand for a character after a backslash. -/
inductive Escape where
  | quote
  | backslash
  | slash
  | backspace
  | formFeed
  | lineFeed
  | carriageReturn
  | tab
deriving DecidableEq, Repr

namespace Escape

/-- the letter after the backslash -/
def letter : Escape → Char
  | quote => '\x22'
  | backslash => '\\'
  | slash => '/'
  | backspace => 'b'
  | formFeed => 'f'
  | lineFeed => 'n'
  | carriageReturn => 'r'
  | tab => 't'

/-- the character that it stands for -/
def char : Escape → Char
  | quote => '\x22'
  | backslash => '\\'
  | slash => '/'
  | backspace => Char.ofNat 8
  | formFeed => Char.ofNat 0x0c
  | lineFeed => '\n'
  | carriageReturn => '\r'
  | tab => '\t'

end Escape

/-- A hexadecimal digit, of either case. -/
structure HexDigit where
  char : Char
  fits : (digitOfBase? 16 char).isSome = true

/-- the value of a hexadecimal digit -/
def HexDigit.value (d : HexDigit) : Nat := (digitOfBase? 16 d.char).getD 0

/-- whether a character may stand in a string as it is -/
def isPlain (c : Char) : Bool := 0x20 ≤ c.toNat && c ≠ '\x22' && c ≠ '\\'

/-- A piece of a string: a character as it is, one by its letter, or a code unit by its number. -/
inductive Piece where
  | plain (c : Char) (fits : isPlain c = true)
  | escape (e : Escape)
  | unit (a b c d : HexDigit)

namespace Piece

/-- what stands there -/
def text : Piece → List Char
  | plain c _ => [c]
  | escape e => ['\\', e.letter]
  | unit a b c d => ['\\', 'u', a.char, b.char, c.char, d.char]

/-- the number of a code unit that is given by it -/
def number? : Piece → Option Nat
  | unit a b c d => some (((a.value * 16 + b.value) * 16 + c.value) * 16 + d.value)
  | _ => none

/-- the character that a piece denotes on its own -/
def char : Piece → Char
  | plain c _ => c
  | escape e => e.char
  | unit a b c d => ofCodePoint (((a.value * 16 + b.value) * 16 + c.value) * 16 + d.value)

/-- the character that two code units in a row denote, the halves of a surrogate pair -/
def pair? (p q : Piece) : Option Char :=
  match p.number?, q.number? with
  | some high, some low =>
    if 0xd800 ≤ high && high ≤ 0xdbff && 0xdc00 ≤ low && low ≤ 0xdfff then
      some (ofCodePoint (0x10000 + (high - 0xd800) * 0x400 + (low - 0xdc00)))
    else none
  | _, _ => none

/-- A reader of YAML takes no characters that YAML does not allow, and folds the breaks of lines. -/
def isReadable : Piece → Bool
  | plain c _ => Yaml.isAllowed c && !Yaml.isBreak c
  | _ => true

end Piece

/-- the characters of a string, where two halves of a surrogate pair make one -/
def charsOf : List Piece → List Char
  | [] => []
  | [p] => [p.char]
  | p :: q :: ps =>
    match p.pair? q with
    | some c => c :: charsOf ps
    | none => p.char :: charsOf (q :: ps)

/-- whether a string holds a surrogate pair as two code units -/
def hasPair : List Piece → Bool
  | p :: q :: ps => (p.pair? q).isSome || hasPair (q :: ps)
  | _ => false

/-- a string in its quotes -/
def quoted (ps : List Piece) : List Char := '\x22' :: ps.flatMap Piece.text ++ ['\x22']

/-- A reader of YAML takes the two code units of a surrogate pair for two characters. -/
def isReadableString (ps : List Piece) : Bool := ps.all Piece.isReadable && !hasPair ps

/-! ### Numbers -/

/-- At least one decimal digit. -/
abbrev Digits := { ds : List (Fin 10) // ds ≠ [] }

namespace Digits

/-- what stands there -/
def text (ds : List (Fin 10)) : List Char := ds.map fun d => hexDigit d.val

/-- the natural that digits stand for -/
def value (ds : List (Fin 10)) : Nat := Literal.value 10 (ds.map Fin.val)

end Digits

/-- A sign before digits. -/
inductive Sign where
  | plus
  | minus
deriving DecidableEq, Repr

/-- An exponent: its letter, a sign, if it has one, and its digits. -/
structure Exponent where
  capital : Bool
  sign : Option Sign
  digits : Digits

namespace Exponent

/-- what stands there -/
def text (e : Exponent) : List Char :=
  (if e.capital then 'E' else 'e') ::
    (match e.sign with
      | some .plus => '+' :: Digits.text e.digits.1
      | some .minus => '-' :: Digits.text e.digits.1
      | none => Digits.text e.digits.1)

/-- the power of ten that it stands for -/
def value (e : Exponent) : Int :=
  if e.sign = some .minus then -(Digits.value e.digits.1 : Int) else Digits.value e.digits.1

end Exponent

/-- A number: a sign, digits without a zero in front, a fraction and an exponent. -/
structure Number where
  negative : Bool
  whole : Digits
  fits : whole.1 = [0] ∨ whole.1.head? ≠ some 0
  fraction : Option Digits
  exponent : Option Exponent

namespace Number

/-- the digits behind the point -/
def fractionDigits (n : Number) : List (Fin 10) := (n.fraction.map Subtype.val).getD []

/-- what stands there, without the sign -/
def body (n : Number) : List Char :=
  Digits.text n.whole.1
    ++ (match n.fraction with
      | some ds => '.' :: Digits.text ds.1
      | none => [])
    ++ (n.exponent.map Exponent.text).getD []

/-- what stands there -/
def text (n : Number) : List Char := if n.negative then '-' :: n.body else n.body

/-- whether there is neither a fraction nor an exponent -/
def isInteger (n : Number) : Bool := n.fraction.isNone && n.exponent.isNone

/-- the number itself: an integer, or the nearest double-precision number -/
def scalar (n : Number) : Scalar :=
  if n.isInteger then
    .int (if n.negative then -(Digits.value n.whole.1 : Int) else Digits.value n.whole.1)
  else
    .double (.ofDecimal n.negative (Digits.value (n.whole.1 ++ n.fractionDigits))
      ((n.exponent.map Exponent.value).getD 0 - n.fractionDigits.length))

/-- A reader takes integers of no more digits. -/
def isReadable (n : Number) : Bool := !n.isInteger || n.whole.1.length ≤ maxDigits

/-- A reader of YAML knows a number with an exponent by its point and the sign of the exponent. -/
def isKept (n : Number) : Bool :=
  match n.exponent with
  | none => true
  | some e => n.fraction.isSome && e.sign.isSome

/-- what a reader of YAML takes a number for: other notations are texts to it -/
def reading (n : Number) : Scalar := if n.isKept then n.scalar else .text (String.ofList n.text)

end Number

/-! ### Values -/

/-- A value without parts. -/
inductive Atom where
  | null
  | bool (b : Bool)
  | number (n : Number)
  | string (ps : List Piece)

namespace Atom

/-- what stands there -/
def text : Atom → List Char
  | null => "null".toList
  | bool true => "true".toList
  | bool false => "false".toList
  | number n => n.text
  | string ps => quoted ps

/-- what it denotes -/
def scalar : Atom → Scalar
  | null => .null
  | bool b => .bool b
  | number n => n.scalar
  | string ps => .text (String.ofList (charsOf ps))

/-- whether a reader of YAML takes it -/
def isReadable : Atom → Bool
  | number n => n.isReadable
  | string ps => isReadableString ps
  | _ => true

/-- whether it takes it for what it denotes then -/
def isKept : Atom → Bool
  | number n => n.isKept
  | _ => true

/-- what it takes it for -/
def reading : Atom → Scalar
  | number n => n.reading
  | a => a.scalar

theorem reading_eq {a : Atom} (h : a.isKept = true) : a.reading = a.scalar := by
  cases a with
  | number n => exact if_pos h
  | _ => rfl

end Atom

/-- The key of a member: its string, and the white space before it and between it and the colon. -/
structure Key where
  before : Gap
  name : List Piece
  after : Gap

namespace Key

/-- what stands there, with the colon -/
def text (k : Key) : List Char := k.before.text ++ quoted k.name ++ k.after.text ++ [':']

/-- what it denotes -/
def string (k : Key) : String := String.ofList (charsOf k.name)

/-- A reader of YAML knows a key by a colon that stands in its line, no further than so many characters. -/
def isReadable (k : Key) : Bool :=
  k.before.isReadable && isReadableString k.name && k.after.all (· = .space)
    && (quoted k.name).length + k.after.length ≤ 1024

end Key

mutual

/-- A value. -/
inductive Value where
  | atom (a : Atom)
  | emptyArray (gap : Gap)
  | array (items : Items)
  | emptyObject (gap : Gap)
  | object (members : Members)

/-- The items of an array that has some, each with the white space around it. -/
inductive Items where
  | last (before : Gap) (value : Value) (after : Gap)
  | more (before : Gap) (value : Value) (after : Gap) (rest : Items)

/-- The members of an object that has some, each with the white space around its value. -/
inductive Members where
  | last (key : Key) (before : Gap) (value : Value) (after : Gap)
  | more (key : Key) (before : Gap) (value : Value) (after : Gap) (rest : Members)

end

mutual

/-- what stands there -/
def Value.text : Value → List Char
  | .atom a => a.text
  | .emptyArray gap => '[' :: gap.text ++ [']']
  | .array items => '[' :: items.text ++ [']']
  | .emptyObject gap => '\x7b' :: gap.text ++ ['\x7d']
  | .object members => '\x7b' :: members.text ++ ['\x7d']

/-- what stands between the brackets -/
def Items.text : Items → List Char
  | .last before v after => before.text ++ v.text ++ after.text
  | .more before v after rest => before.text ++ v.text ++ after.text ++ ',' :: rest.text

/-- what stands between the braces -/
def Members.text : Members → List Char
  | .last k before v after => k.text ++ before.text ++ v.text ++ after.text
  | .more k before v after rest => k.text ++ before.text ++ v.text ++ after.text ++ ',' :: rest.text

end

section Data

variable (f : Atom → Scalar)

mutual

/-- The data of a value whose atoms are taken for what `f` tells. Of members with one key the first place
stays, with the last value. -/
def Value.dataBy : Value → Data
  | .atom a => .scalar (f a)
  | .emptyArray _ => .list []
  | .array items => .list items.dataBy
  | .emptyObject _ => .dict []
  | .object members => .dict (members.entriesBy.foldl (fun es e => Data.withEntry e.1 e.2 es) [])

/-- the data of the items -/
def Items.dataBy : Items → List Data
  | .last _ v _ => [v.dataBy]
  | .more _ v _ rest => v.dataBy :: rest.dataBy

/-- the data of the members, in their order -/
def Members.entriesBy : Members → List (String × Data)
  | .last k _ v _ => [(k.string, v.dataBy)]
  | .more k _ v _ rest => (k.string, v.dataBy) :: rest.entriesBy

end

end Data

mutual

/-- whether a reader of YAML takes it, as far as it reads so deep -/
def Value.isReadable : Value → Bool
  | .atom a => a.isReadable
  | .emptyArray gap => gap.isReadable
  | .array items => items.isReadable
  | .emptyObject gap => gap.isReadable
  | .object members => members.isReadable

/-- whether a reader of YAML takes the items -/
def Items.isReadable : Items → Bool
  | .last before v after => before.isReadable && v.isReadable && after.isReadable
  | .more before v after rest =>
    before.isReadable && v.isReadable && after.isReadable && rest.isReadable

/-- whether a reader of YAML takes the members -/
def Members.isReadable : Members → Bool
  | .last k before v after =>
    k.isReadable && before.isReadable && v.isReadable && after.isReadable
  | .more k before v after rest =>
    k.isReadable && before.isReadable && v.isReadable && after.isReadable && rest.isReadable

end

mutual

/-- whether a reader of YAML takes the atoms for what they denote -/
def Value.isKept : Value → Bool
  | .atom a => a.isKept
  | .array items => items.isKept
  | .object members => members.isKept
  | _ => true

/-- the same of the items of an array -/
def Items.isKept : Items → Bool
  | .last _ v _ => v.isKept
  | .more _ v _ rest => v.isKept && rest.isKept

/-- the same of the members of an object -/
def Members.isKept : Members → Bool
  | .last _ _ v _ => v.isKept
  | .more _ _ v _ rest => v.isKept && rest.isKept

end

mutual

/-- the most collections that a part of a value stands in -/
def Value.height : Value → Nat
  | .array items => items.height + 1
  | .object members => members.height + 1
  | _ => 0

/-- the same of the items of an array, within it -/
def Items.height : Items → Nat
  | .last _ v _ => v.height
  | .more _ v _ rest => max v.height rest.height

/-- the same of the members of an object, within it -/
def Members.height : Members → Nat
  | .last _ _ v _ => v.height
  | .more _ _ v _ rest => max v.height rest.height

end

/-! ### Objects as texts -/

/-- whether a value is an object -/
def Value.isObject : Value → Bool
  | .emptyObject _ => true
  | .object _ => true
  | _ => false

/-- A text that holds an object, and white space around it. -/
structure Document where
  before : Gap
  root : Value
  after : Gap
  isObject : root.isObject = true

namespace Document

/-- what stands there -/
def text (d : Document) : List Char := d.before.text ++ d.root.text ++ d.after.text

/-- what it denotes -/
def data (d : Document) : Data := d.root.dataBy Atom.scalar

/-- Whether a reader of YAML takes the text: so does it each part, and none stands in too many others. -/
def isReadable (d : Document) : Bool :=
  d.before.isReadable && d.root.isReadable && d.after.isReadable
    && d.root.height ≤ Yaml.Stream.deepest

/-- what a reader of YAML takes the text for -/
def reading (d : Document) : Data := d.root.dataBy Atom.reading

/-- whether it takes the numbers for numbers -/
def isKept (d : Document) : Bool := d.root.isKept

end Document

end MeshOperator.Json
