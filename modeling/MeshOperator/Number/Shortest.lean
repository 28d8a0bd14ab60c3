import MeshOperator.Number.Double

/-!
# The fewest digits that read back

`Decimal.shortest` chooses, for a positive number, the decimal with the fewest digits that rounds
to it; of several the nearest, of two equally near the even one. On each grid of decimals only the
two neighbours of the number can be the nearest, so those are the ones tried, from one digit up.
-/

namespace MeshOperator

/-- The decimal `digits · 10 ^ exponent`. -/
structure Decimal where
  digits : Nat
  exponent : Int
deriving DecidableEq, Repr

namespace Decimal

/-- how many digits the written form of a positive natural has; none for zero -/
def length (n : Nat) : Nat := if n = 0 then 0 else (Nat.toDigits 10 n).length

/-- the `k` with `10 ^ (k - 1) ≤ num / den < 10 ^ k` -/
def point (num den : Nat) : Int :=
  if den ≤ num then length (num / den) else 1 - (length ((den - 1) / num) : Int)

/-- the decimal without its trailing zeros; `fuel` bounds their number -/
def trimZeros : Nat → Nat → Int → Decimal
  | 0, digits, exponent => ⟨digits, exponent⟩
  | fuel + 1, digits, exponent =>
    if digits % 10 = 0 ∧ digits ≠ 0 then trimZeros fuel (digits / 10) (exponent + 1)
    else ⟨digits, exponent⟩

/-- The reals that round to `mantissa · 2 ^ exponent`, in quarters of `2 ^ exponent`: the lower end,
the number, the upper end. The gap below a power of two is half as wide. -/
def interval (mantissa : Nat) (exponent : Int) : Nat × Nat × Nat :=
  let low := if mantissa = Nat.pow 2 52 ∧ Double.minExponent < exponent then 1 else 2
  (4 * mantissa - low, 4 * mantissa, 4 * mantissa + 2)

/-- The nearer of the two neighbours of `mantissa · 2 ^ exponent` among the multiples of
`10 ^ unit` that round to it. -/
def onGrid? (mantissa : Nat) (exponent : Int) (unit : Int) : Option Nat :=
  let (low, value, high) := interval mantissa exponent
  let shift := exponent - 2
  let a := Nat.pow 10 unit.toNat * Nat.pow 2 (-shift).toNat
  let b := Nat.pow 2 shift.toNat * Nat.pow 10 (-unit).toNat
  let fits (c : Nat) : Bool :=
    if mantissa % 2 = 0 then low * b ≤ c * a ∧ c * a ≤ high * b
    else low * b < c * a ∧ c * a < high * b
  let c := value * b / a
  let gapDown := value * b - c * a
  let gapUp := (c + 1) * a - value * b
  match fits c, fits (c + 1) with
  | true, false => some c
  | false, true => some (c + 1)
  | true, true =>
    if gapDown < gapUp then some c
    else if gapUp < gapDown then some (c + 1)
    else some (c + c % 2)
  | false, false => none

/-- The decimal with the fewest digits that rounds to `mantissa · 2 ^ exponent`, for a positive
mantissa. -/
def shortest (mantissa : Nat) (exponent : Int) : Decimal :=
  let (n, d) := Double.shiftRatio mantissa 1 exponent
  let k := point n d
  let found := (List.range 17).findSome? fun i =>
    (onGrid? mantissa exponent (k - (i + 1 : Nat))).map fun c => (c, k - (i + 1 : Nat))
  match found with
  | some (c, unit) => trimZeros 17 c unit
  | none => ⟨mantissa, exponent⟩

/-- the written digits -/
def digitText (d : Decimal) : List Char := Nat.toDigits 10 d.digits

end Decimal

end MeshOperator
