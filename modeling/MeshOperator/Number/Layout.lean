import MeshOperator.Number.Shortest
import MeshOperator.Text.Digit

/-!
# The written form of a number

A number is written with the fewest digits that read back. Where the point falls near the digits
they are written positionally, elsewhere with a power of ten. The decisions that differ between
outputs are one record, `NumberLayout`.
-/

namespace MeshOperator

/-- How numbers are written: the texts that stand for not-a-number and infinity, and whether the
digits before a power of ten always have a point. -/
structure NumberLayout where
  nan : String
  infinity : String
  dotted : Bool
deriving Repr

namespace NumberLayout

/-- in messages: `nan`, `inf`, `1e+16` -/
def plain : NumberLayout := ⟨"nan", "inf", false⟩

/-- in JSON: `NaN`, `Infinity`, `1e+16` -/
def json : NumberLayout := ⟨"NaN", "Infinity", false⟩

/-- in YAML: `.nan`, `.inf`, `1.0e+16` -/
def yaml : NumberLayout := ⟨".nan", ".inf", true⟩

/-- a power of ten: its sign and at least two digits -/
def powerText (e : Int) : List Char :=
  'e' :: (if e < 0 then '-' else '+') :: paddedText 2 e.natAbs

/-- `digits` with the point after `point` of them -/
def positional (digits : List Char) (point : Int) : List Char :=
  let n : Int := digits.length
  if point ≤ 0 then '0' :: '.' :: List.replicate (-point).toNat '0' ++ digits
  else if n ≤ point then digits ++ List.replicate (point - n).toNat '0' ++ ['.', '0']
  else digits.take point.toNat ++ '.' :: digits.drop point.toNat

/-- `digits` as one digit, a fraction and a power of ten -/
def scientific (layout : NumberLayout) (digits : List Char) (point : Int) : List Char :=
  let fraction :=
    match digits.drop 1 with
    | [] => if layout.dotted then ['.', '0'] else []
    | ds => '.' :: ds
  digits.take 1 ++ fraction ++ powerText (point - 1)

/-- A positive finite number: positionally while the point falls from three places before the
digits to sixteen places after their start. -/
def magnitude (layout : NumberLayout) (mantissa : Nat) (exponent : Int) : List Char :=
  if mantissa = 0 then ['0', '.', '0']
  else
    let d := Decimal.shortest mantissa exponent
    let digits := d.digitText
    let point : Int := digits.length + d.exponent
    if -4 < point ∧ point ≤ 16 then positional digits point else layout.scientific digits point

/-- the written form of a number -/
def text (layout : NumberLayout) : Double → List Char
  | .nan => layout.nan.toList
  | .infinite negative => if negative then '-' :: layout.infinity.toList else layout.infinity.toList
  | .finite negative mantissa exponent =>
    let s := layout.magnitude mantissa exponent
    if negative then '-' :: s else s

end NumberLayout

namespace Double

/-- `|value| · 10 ^ places` rounded to the nearest natural -/
def scaledDigits (mantissa : Nat) (exponent : Int) (places : Int) : Nat :=
  let (n, d) := shiftRatio mantissa 1 exponent
  if 0 ≤ places then roundDiv (n * Nat.pow 10 places.toNat) d
  else roundDiv n (d * Nat.pow 10 (-places).toNat)

/-- A finite magnitude with a fixed number of places after the point. -/
def fixedText (mantissa : Nat) (exponent : Int) (places : Nat) : List Char :=
  let s := paddedText (places + 1) (scaledDigits mantissa exponent places)
  let whole := s.take (s.length - places)
  if places = 0 then whole else whole ++ '.' :: s.drop (s.length - places)

/-- The `count` leading digits of a positive magnitude, rounded, and where the point falls. -/
def leadingDigits (mantissa : Nat) (exponent : Int) (count : Nat) : List Char × Int :=
  if mantissa = 0 then (List.replicate count '0', 1)
  else
    let (n, d) := shiftRatio mantissa 1 exponent
    let k := Decimal.point n d
    let s := decimalText (scaledDigits mantissa exponent (count - k))
    if s.length = count then (s, k) else (s.take count, k + 1)

/-- A finite magnitude as one digit, `places` more and a power of ten. -/
def powerText (mantissa : Nat) (exponent : Int) (places : Nat) : List Char :=
  let (s, point) := leadingDigits mantissa exponent (places + 1)
  let fraction := if places = 0 then [] else '.' :: s.drop 1
  s.take 1 ++ fraction ++ NumberLayout.powerText (point - 1)

end Double

end MeshOperator
