import MeshOperator.Values.Basic
import MeshOperator.Yaml.DocumentValue
import MeshOperator.Yaml.Lexer

/-!
# Reading values

Chart values arrive as a mapping, or as a text or bytes that hold one in YAML. `Values.ofRaw` accepts
them in any of these forms; nothing, in any form, means no values.

`Yaml.Stream.nextValue?` reads a text of several documents one at a time, so that what stands before
a fault can be used.
-/

namespace MeshOperator

namespace Yaml

/-- The next document of a text as data, none at the end of the text. What a document holds, and what its
metadata hold, is read on its own. -/
def Stream.nextValue? (first : Bool) (s : Stream) : Except Fault (Option (Data × Stream)) := do
  match ← s.document? first with
  | none => return none
  | some (d, rest) =>
    let (store, i) ← d.value
    return some (store.readOpened 2 i, rest)

/-- The only document of a text, none if it has none. A second one is a fault. -/
def soleValue? (text : String) : Except Fault (Option (Store × Item)) := do
  match ← (Stream.ofTokens (Tokens.ofText text.toList)).document? true with
  | none => return none
  | some (d, rest) =>
    match ← rest.marked? with
    | none => return some (← d.value)
    | some _ => .error .yaml

end Yaml

namespace Values

/-- a fault for raw values that are no mapping -/
def notMapping (raw : Data) : Fault := .ofKind "<root>" "mapping" raw

/-- the values that a text holds -/
def ofText (text : String) : Except Fault Values :=
  if text = "" then .ok .empty
  else
    match Yaml.soleValue? text with
    | .error .yaml => .error (notMapping (.text text))
    | .error f => .error f
    | .ok none | .ok (some (_, .scalar .null)) => .ok .empty
    | .ok (some (s, i)) =>
      match s.itemEntries? i with
      | some entries => .ok (.reroot s entries)
      | none => .error (notMapping (s.read i))

/-- the values of a mapping, of a text or bytes that hold one, or of nothing -/
def ofRaw : Data → Except Fault Values
  | .null => .ok .empty
  | .text s => ofText s
  | .bytes [] => .ok .empty
  | .bytes b => do ofText (String.ofList (← orFault .utf8 (Utf8.decode b)))
  | .dict entries => .ok (.ofEntries entries)
  | raw => .error (notMapping raw)

end Values

end MeshOperator
