import MeshOperator.Number.Double
import MeshOperator.Time.Calendar

/-!
# Data

What objects of the cluster, chart values and log fields are made of: scalars, dates and moments,
and lists, tuples, sets and mappings of data. Mappings keep the order of their entries, and their
keys may be any data.
-/

namespace MeshOperator

/-- A single value without parts. -/
inductive Scalar where
  | null
  | bool (b : Bool)
  | int (n : Int)
  | double (d : Double)
  | text (s : String)
  | bytes (b : List UInt8)
deriving DecidableEq, Repr, Inhabited

/-- A tree of values. Where a value holds itself the tree ends in `again`, which tells whether the
value is a mapping. -/
inductive Data where
  | scalar (s : Scalar)
  | date (d : Date)
  | moment (m : Moment)
  | list (items : List Data)
  | tuple (items : List Data)
  | set (items : List Data)
  | dict (entries : List (Data × Data))
  | again (mapping : Bool)
deriving Repr, Inhabited

namespace Data

@[match_pattern] abbrev null : Data := .scalar .null
@[match_pattern] abbrev bool (b : Bool) : Data := .scalar (.bool b)
@[match_pattern] abbrev int (n : Int) : Data := .scalar (.int n)
@[match_pattern] abbrev double (d : Double) : Data := .scalar (.double d)
@[match_pattern] abbrev text (s : String) : Data := .scalar (.text s)
@[match_pattern] abbrev bytes (b : List UInt8) : Data := .scalar (.bytes b)

/-- a mapping with texts for keys -/
def object (entries : List (String × Data)) : Data := .dict (entries.map fun e => (text e.1, e.2))

end Data

namespace Scalar

/-- the point of the number line that a number or a truth value stands at; none for not-a-number
and what is no number -/
def point? : Scalar → Option Extended
  | .bool b => some (.ofInt (if b then 1 else 0))
  | .int n => some (.ofInt n)
  | .double d => d.extended?
  | _ => none

/-- Equality: numbers and truth values by their points, all else by content. -/
def same (a b : Scalar) : Bool :=
  match a, b with
  | .null, .null => true
  | .text s, .text t => s = t
  | .bytes s, .bytes t => s = t
  | a, b =>
    match a.point?, b.point? with
    | some x, some y => x.equal y
    | _, _ => false

/-- what counts as yes: everything but null, false, zero and the empty -/
def truthy : Scalar → Bool
  | .null => false
  | .bool b => b
  | .int n => n ≠ 0
  | .double d => !d.isZero
  | .text s => s ≠ ""
  | .bytes b => !b.isEmpty

end Scalar

/-- Equality of moments: those with an offset by the instant they denote, those without by what they
show, and never one of each. -/
def Moment.same (a b : Moment) : Bool :=
  a.offset.isSome = b.offset.isSome && a.instant = b.instant

namespace Data

/-- whether each test holds of the value in its place -/
def testsHold {α : Type} : List (α → Bool) → List α → Bool
  | [], [] => true
  | p :: ps, a :: as => p a && testsHold ps as
  | _, _ => false

/-- whether there are as many tests as values and each test holds of some value -/
def testsMeet {α : Type} (ps : List (α → Bool)) (as : List α) : Bool :=
  ps.length = as.length && ps.all (fun p => as.any p)

mutual

/-- Equality of data: of lists in order, of sets and mappings regardless of order. -/
def same : Data → Data → Bool
  | .scalar a, .scalar b => a.same b
  | .date a, .date b => a = b
  | .moment a, .moment b => a.same b
  | .list as, .list bs => testsHold (sameTests as) bs
  | .tuple as, .tuple bs => testsHold (sameTests as) bs
  | .set as, .set bs => testsMeet (sameTests as) bs
  | .dict as, .dict bs => testsMeet (entryTests as) bs
  | _, _ => false

/-- equality with each of some data -/
def sameTests : List Data → List (Data → Bool)
  | [] => []
  | a :: as => same a :: sameTests as

/-- equality with each of some entries -/
def entryTests : List (Data × Data) → List (Data × Data → Bool)
  | [] => []
  | (k, v) :: as => (fun b => same k b.1 && same v b.2) :: entryTests as

end

/-- whether data is null -/
def isNull : Data → Bool
  | .scalar .null => true
  | _ => false

/-- what counts as yes: everything but null, false, zero and the empty -/
def truthy : Data → Bool
  | .scalar s => s.truthy
  | .list items => !items.isEmpty
  | .tuple items => !items.isEmpty
  | .set items => !items.isEmpty
  | .dict entries => !entries.isEmpty
  | _ => true

/-- the entry of a mapping's entries under a text -/
def lookup? (key : String) (entries : List (Data × Data)) : Option Data :=
  match entries with
  | [] => none
  | (k, v) :: rest =>
    match k with
    | .text s => if s = key then some v else lookup? key rest
    | _ => lookup? key rest

/-- the entries without the one under a text -/
def without (key : String) (entries : List (Data × Data)) : List (Data × Data) :=
  entries.filter fun e =>
    match e.1 with
    | .text s => s ≠ key
    | _ => true

/-- the entries with one under a text replaced in its place, or added at the end -/
def withEntry (key : String) (value : Data) : List (Data × Data) → List (Data × Data)
  | [] => [(.text key, value)]
  | (k, v) :: rest =>
    match k with
    | .text s => if s = key then (k, value) :: rest else (k, v) :: withEntry key value rest
    | _ => (k, v) :: withEntry key value rest

end Data

example : Data.same (.object [("a", .int 1)]) (.object [("a", .double (.ofInt 1))]) = true := by
  decide

end MeshOperator
