/-!
# Cutting texts at separators

* `Text.cut`: the pieces between the occurrences of a separator, at least one.
* `Text.cutFirst?`, `Text.cutLast?`: the text before and after one occurrence.
* `Text.occurs`: whether a text holds another.
-/

namespace MeshOperator.Text

/-- the pieces of `s` between the occurrences of `sep` -/
def cut (sep : Char) : List Char → List (List Char)
  | [] => [[]]
  | c :: s =>
    match cut sep s with
    | [] => [[c]]
    | p :: ps => if c = sep then [] :: p :: ps else (c :: p) :: ps

/-- the text before the first `sep` and the text after it -/
def cutFirst? (sep : Char) : List Char → Option (List Char × List Char)
  | [] => none
  | c :: s =>
    if c = sep then some ([], s) else (cutFirst? sep s).map fun p => (c :: p.1, p.2)

/-- the text before the last `sep` and the text after it -/
def cutLast? (sep : Char) : List Char → Option (List Char × List Char)
  | [] => none
  | c :: s =>
    match cutLast? sep s with
    | some p => some (c :: p.1, p.2)
    | none => if c = sep then some ([], s) else none

/-- whether `s` begins with `t` -/
def startsWith : List Char → List Char → Bool
  | _, [] => true
  | [], _ :: _ => false
  | c :: s, d :: t => c = d && startsWith s t

/-- whether `t` occurs in `s` -/
def occurs (t : List Char) : List Char → Bool
  | [] => t.isEmpty
  | c :: s => startsWith (c :: s) t || occurs t s

/-- the pieces with `sep` between each two -/
def glue (sep : List Char) : List (List Char) → List Char
  | [] => []
  | [p] => p
  | p :: ps => p ++ sep ++ glue sep ps

/-- the pieces of a text between the occurrences of `sep`, as texts -/
def pieces (sep : Char) (s : String) : List String := (cut sep s.toList).map String.ofList

theorem cut_ne_nil (sep : Char) (s : List Char) : cut sep s ≠ [] := by
  cases s with
  | nil => simp [cut]
  | cons c s => simp only [cut]; split <;> (try split) <;> simp

end MeshOperator.Text
