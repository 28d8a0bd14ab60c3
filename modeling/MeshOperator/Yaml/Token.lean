import MeshOperator.Fault

/-!
# Tokens of YAML

What the characters of a YAML text amount to before its nodes are put together: marks, scalars and
properties, and the places where indented blocks begin and end.
-/

namespace MeshOperator.Yaml

/-- A token of a YAML text. -/
inductive Token where
  /-- the version of the language -/
  | version (major : Int)
  /-- a tag handle and what it stands for -/
  | handle (name expansion : String)
  /-- a directive of another name -/
  | directive
  | documentStart
  | documentEnd
  | blockSequence
  | blockMapping
  | blockEnd
  | flowSequence
  | flowSequenceEnd
  | flowMapping
  | flowMappingEnd
  | blockEntry
  | flowEntry
  | key
  | value
  | alias (name : String)
  | anchor (name : String)
  /-- a tag: a handle, if it has one, and the rest -/
  | tag (handle : Option String) (suffix : String)
  /-- a scalar, and whether it is without quotes and block marks -/
  | scalar (text : String) (plain : Bool)
  | textEnd
deriving DecidableEq, Repr, Inhabited

/-- The tokens of a text, as far as it has tokens, and what is wrong where they end. -/
structure Tokens where
  list : List Token
  fault : Option Fault
deriving Repr

end MeshOperator.Yaml
