import MeshOperator.Data.SetOrder
import MeshOperator.Number.Layout
import MeshOperator.Number.Literal
import MeshOperator.Text.Quoted

/-!
# Data in messages

`Data.shown` is the form in which a message shows data: texts quoted, lists in brackets, mappings and
sets in braces, a set in the order of its table, dates and moments by the numbers they are made of.
`Data.plainText` differs for a text, which stands as it is, and for a date or moment, which has its
international form. `Data.isWritable` says whether every integer in data is short enough to be
written.
-/

namespace MeshOperator

/-- a scalar in a message -/
def Scalar.shown : Scalar → List Char
  | .null => "None".toList
  | .bool b => if b then "True".toList else "False".toList
  | .int n => integerText n
  | .double d => NumberLayout.plain.text d
  | .text s => Text.quoted s.toList
  | .bytes b => Text.quotedBytes b

/-- texts with a comma and a space between each two -/
def commaSeparated (parts : List (List Char)) : List Char := (parts.intersperse [',', ' ']).flatten

/-- a date in a message -/
def Date.shown (d : Date) : List Char :=
  "datetime.date(".toList
    ++ commaSeparated [decimalText d.year, decimalText d.month, decimalText d.day] ++ [')']

/-- a moment in a message: seconds and microseconds only as far as they are not zero -/
def Moment.shown (m : Moment) : List Char :=
  let clock :=
    if m.micro ≠ 0 then [m.hour, m.minute, m.second, m.micro]
    else if m.second ≠ 0 then [m.hour, m.minute, m.second]
    else [m.hour, m.minute]
  let zone :=
    match m.offset with
    | none => []
    | some 0 => ["tzinfo=datetime.timezone.utc".toList]
    | some n => [("tzinfo=datetime.timezone(" ++ durationText n ++ ")").toList]
  "datetime.datetime(".toList
    ++ commaSeparated ([m.date.year, m.date.month, m.date.day].map decimalText
      ++ clock.map decimalText ++ zone) ++ [')']

namespace Data

mutual

/-- data in a message -/
def shown : Data → List Char
  | .scalar s => s.shown
  | .date d => d.shown
  | .moment m => m.shown
  | .list items => '[' :: commaSeparated (shownItems items) ++ [']']
  | .tuple [] => ['(', ')']
  | .tuple [a] => '(' :: shown a ++ [',', ')']
  | .tuple items => '(' :: commaSeparated (shownItems items) ++ [')']
  | .set [] => "set()".toList
  | .set items =>
    '\x7b' :: commaSeparated (inSetOrder (items.zip (shownItems items))) ++ ['\x7d']
  | .dict entries => '\x7b' :: commaSeparated (shownEntries entries) ++ ['\x7d']
  | .again mapping => if mapping then "\x7b...\x7d".toList else "[...]".toList

/-- the items of a sequence in a message -/
def shownItems : List Data → List (List Char)
  | [] => []
  | d :: ds => shown d :: shownItems ds

/-- the entries of a mapping in a message -/
def shownEntries : List (Data × Data) → List (List Char)
  | [] => []
  | (k, v) :: es => (shown k ++ ':' :: ' ' :: shown v) :: shownEntries es

end

mutual

/-- whether every integer in data is short enough to be written in base ten -/
def isWritable : Data → Bool
  | .scalar (.int n) => isWritableInteger n
  | .list items | .tuple items | .set items => areWritable items
  | .dict entries => areWritableEntries entries
  | _ => true

/-- whether every integer in the items is short enough -/
def areWritable : List Data → Bool
  | [] => true
  | d :: ds => isWritable d && areWritable ds

/-- whether every integer in the entries is short enough -/
def areWritableEntries : List (Data × Data) → Bool
  | [] => true
  | (k, v) :: es => isWritable k && isWritable v && areWritableEntries es

end

/-- data as the whole of a text -/
def plainText : Data → String
  | .text s => s
  | .date d => String.ofList d.iso
  | .moment m => String.ofList (m.iso ' ')
  | d => String.ofList d.shown

/-- the name of the kind of data, for messages -/
def kindName : Data → String
  | .scalar .null => "NoneType"
  | .scalar (.bool _) => "bool"
  | .scalar (.int _) => "int"
  | .scalar (.double _) => "float"
  | .scalar (.text _) => "str"
  | .scalar (.bytes _) => "bytes"
  | .date _ => "date"
  | .moment _ => "datetime"
  | .list _ => "list"
  | .tuple _ => "tuple"
  | .set _ => "set"
  | .dict _ => "dict"
  | .again mapping => if mapping then "dict" else "list"

end Data

end MeshOperator
