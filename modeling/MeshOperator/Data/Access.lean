import MeshOperator.Fault
import MeshOperator.Text.Cut

/-!
# Reading parts of data

Objects of the cluster arrive as data of any shape. Each function here reads one part and says what
happens when the data is of another kind than the part needs.
-/

namespace MeshOperator.Data

/-- the entries of a mapping, which alone can be asked for an entry -/
def entries : Data → Except Fault (List (Data × Data))
  | .dict es => .ok es
  | _ => .error .lacking

/-- the entry under a text, if the mapping has one -/
def entry? (d : Data) (key : String) : Except Fault (Option Data) := do
  return lookup? key (← d.entries)

/-- the entry under a text, or a default -/
def entryOr (d : Data) (key : String) (default : Data) : Except Fault Data := do
  return (← d.entry? key).getD default

/-- the entry under a text, null when there is none -/
def entry (d : Data) (key : String) : Except Fault Data := d.entryOr key .null

/-- `d` unless it counts as no -/
def orElse (d default : Data) : Data := if d.truthy then d else default

/-- the entry under a text, or the default when it is absent or counts as no -/
def entryOrElse (d : Data) (key : String) (default : Data) : Except Fault Data := do
  return (← d.entry key).orElse default

/-- the entry under a text that must be there -/
def required (d : Data) (key : String) : Except Fault Data :=
  match d with
  | .dict es =>
    match lookup? key es with
    | some v => .ok v
    | none => .error (.missing (.text key))
  | _ => .error .unsuitable

/-- whether a text is a key or an item of data, or a part of a text -/
def holds (d : Data) (part : String) : Except Fault Bool :=
  match d with
  | .dict es => .ok (lookup? part es).isSome
  | .text s => .ok (Text.occurs part.toList s.toList)
  | .list items | .tuple items | .set items => .ok (items.any fun i => i.same (.text part))
  | _ => .error .unsuitable

/-- what is met one after the other in data: items, keys, characters -/
def members : Data → Except Fault (List Data)
  | .list items => .ok items
  | .tuple items => .ok items
  | .set items => .ok items
  | .dict es => .ok (es.map Prod.fst)
  | .text s => .ok (s.toList.map fun c => .text (String.singleton c))
  | .bytes b => .ok (b.map fun x => .int x.toNat)
  | _ => .error .unsuitable

/-- the integer that data stands for: a number without its fraction, or a written integer -/
def toInteger : Data → Except Fault Int
  | .int n => .ok n
  | .bool b => .ok (if b then 1 else 0)
  | .double d => orFault .number d.toInteger
  | .text s => orFault .number (readInteger 10 s.toList)
  | _ => .error .unsuitable

/-- the text that data is -/
def asText : Data → Except Fault String
  | .text s => .ok s
  | _ => .error .lacking

end MeshOperator.Data
