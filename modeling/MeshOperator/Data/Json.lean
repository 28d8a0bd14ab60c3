import MeshOperator.Data.Shown
import MeshOperator.Text.Escaped

/-!
# Data as JSON

`Data.json` writes data on one line, in ASCII. Tuples are written as arrays, keys that are numbers,
truth values or null as texts, and what JSON has no form for by its plain text. A key of any other
kind has no form, nor has a value that holds itself or an integer that is too long.
-/

namespace MeshOperator

/-- Why data has no JSON form. -/
inductive JsonFault where
  | key
  | circular
  /-- an integer is too long to be written -/
  | tooLong
deriving DecidableEq, Repr

/-- a scalar that is no text, as JSON writes it bare -/
def Scalar.bareJson : Scalar → List Char
  | .null => "null".toList
  | .bool b => if b then "true".toList else "false".toList
  | .int n => integerText n
  | .double d => NumberLayout.json.text d
  | .text s => s.toList
  | .bytes b => Text.quotedBytes b

/-- a scalar as JSON -/
def Scalar.json (s : Scalar) : Except JsonFault (List Char) :=
  match s with
  | .text _ | .bytes _ => .ok (Text.escaped s.bareJson)
  | .int n => if isWritableInteger n then .ok s.bareJson else .error .tooLong
  | _ => .ok s.bareJson

namespace Data

/-- the text of a key -/
def jsonKey : Data → Except JsonFault (List Char)
  | .scalar (.bytes _) => .error .key
  | .scalar (.int n) => if isWritableInteger n then .ok (Text.escaped (integerText n)) else .error .tooLong
  | .scalar s => .ok (Text.escaped s.bareJson)
  | _ => .error .key

mutual

/-- data as JSON -/
def json : Data → Except JsonFault (List Char)
  | .scalar s => s.json
  | .list items => do .ok ('[' :: commaSeparated (← jsonItems items) ++ [']'])
  | .tuple items => do .ok ('[' :: commaSeparated (← jsonItems items) ++ [']'])
  | .dict entries => do .ok ('\x7b' :: commaSeparated (← jsonEntries entries) ++ ['\x7d'])
  | .again _ => .error .circular
  | .date d => .ok (Text.escaped d.iso)
  | .moment m => .ok (Text.escaped (m.iso ' '))
  | .set items =>
    if areWritable items then .ok (Text.escaped (shown (.set items))) else .error .tooLong

/-- the items of an array -/
def jsonItems : List Data → Except JsonFault (List (List Char))
  | [] => .ok []
  | d :: ds => do .ok ((← json d) :: (← jsonItems ds))

/-- the entries of an object -/
def jsonEntries : List (Data × Data) → Except JsonFault (List (List Char))
  | [] => .ok []
  | (k, v) :: es => do
    let key ← jsonKey k
    let value ← json v
    .ok ((key ++ ':' :: ' ' :: value) :: (← jsonEntries es))

end

end Data

end MeshOperator
