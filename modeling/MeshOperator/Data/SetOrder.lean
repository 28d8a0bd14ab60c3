import MeshOperator.Data.Basic

/-!
# The order of a set

A message shows the members of a set in the order of their places in a table, which follow from
numbers for the members: equal members have equal numbers, whatever form they are written in. Only
numbers have a number for their place, so a set with other members is shown in the order in which
they were given.

* `Scalar.placeNumber?`: the number that decides on the place of a member.
* `inSetOrder`: members in the order in which they are shown.
-/

namespace MeshOperator

/-! ### Numbers for members -/

/-- the modulus of the numbers for places -/
def placeModulus : Nat := Nat.pow 2 61 - 1

/-- A residue with a sign as a number of 64 bits. Minus one is kept free, and minus two stands for
it. -/
def signedPlace (negative : Bool) (residue : Nat) : Nat :=
  if negative && residue ≠ 0 then Nat.pow 2 64 - max 2 residue else residue

/-- The number for the place of a scalar: the residue of its value, in which a half is a power of two
as well. -/
def Scalar.placeNumber? : Scalar → Option Nat
  | .bool b => some (if b then 1 else 0)
  | .int n => some (signedPlace (n < 0) (n.natAbs % placeModulus))
  | .double (.finite negative mantissa exponent) =>
    some (signedPlace negative (mantissa * Nat.pow 2 (exponent % 61).toNat % placeModulus))
  | .double (.infinite negative) => some (signedPlace negative 314159)
  | _ => none

/-- the number for the place of a member -/
def Data.placeNumber? : Data → Option Nat
  | .scalar s => s.placeNumber?
  | _ => none

/-! ### The table -/

/-- Places, each free or taken by a member and its number. Their number is a power of two. -/
abbrev PlaceTable (α : Type) := Array (Option (Nat × α))

namespace PlaceTable

variable {α : Type}

/-- a table with more than `n` places, all free -/
def withRoom (n : Nat) : PlaceTable α := Array.replicate (max 8 (Nat.pow 2 (n.log2 + 1))) none

/-- whether a place can be taken -/
def isFree (t : PlaceTable α) (place : Nat) : Bool := (t[place]?.getD none).isNone

/-- The first free place for a member. Those right behind are tried first, where there are enough of
them, then one that the rest of the number leads to. `fuel` bounds the steps. -/
def freePlace (t : PlaceTable α) : (fuel : Nat) → (place rest : Nat) → Nat
  | 0, place, _ => place
  | fuel + 1, place, rest =>
    match (List.range' place (if place + 9 < t.size then 10 else 1)).find? t.isFree with
    | some free => free
    | none => freePlace t fuel ((place * 5 + 1 + rest / 32) % t.size) (rest / 32)

/-- A member put in its place. Once the number is used up the steps lead through all places. -/
def put (t : PlaceTable α) (m : Nat × α) : PlaceTable α :=
  t.setIfInBounds (t.freePlace (t.size + 13) (m.1 % t.size) m.1) (some m)

/-- the members by place -/
def members (t : PlaceTable α) : List (Nat × α) := t.toList.filterMap id

/-- the members put one after the other into a table with more than `n` places -/
def filled (n : Nat) (ms : List (Nat × α)) : PlaceTable α := ms.foldl put (withRoom n)

/-- a member put into a table, which grows when three in five of the places are taken -/
def grow (t : PlaceTable α) (m : Nat × α) : PlaceTable α :=
  let t := t.put m
  let ms := t.members
  if ms.length * 5 < (t.size - 1) * 3 then t else filled (ms.length * 4) ms

end PlaceTable

/-- Members with numbers by place: put into a table for as many as they are, and then from there, one
after the other, into one that grows. -/
def byPlace {α : Type} (ms : List (Nat × α)) : List (Nat × α) :=
  let first := PlaceTable.filled (if ms.length ≤ 4 then 0 else ms.length * 2) ms
  (first.members.foldl PlaceTable.grow (PlaceTable.withRoom 0)).members

/-- Members, each with what is shown for it, in the order in which they are shown. -/
def inSetOrder {α : Type} (members : List (Data × α)) : List α :=
  match members.mapM fun m => m.1.placeNumber?.map fun n => (n, m.2) with
  | some ms => (byPlace ms).map Prod.snd
  | none => members.map Prod.snd

end MeshOperator
