/-!
# Double-precision numbers

A number is not-a-number, an infinity, or `± mantissa · 2 ^ exponent`. Everything is exact integer
arithmetic: a quotient of naturals is rounded once, to the nearest number and to the even one of
two equally near, and comparisons never round.

* `Double.ofRatio`: the number nearest to a quotient.
* `Double.lt`, `Double.equal`: the order, in which not-a-number takes no part.
* `Double.timesPowerOfTwo`: scaling by a power of two.
-/

namespace MeshOperator

/-- A double-precision number. A finite one is `± mantissa · 2 ^ exponent`. -/
inductive Double where
  | nan
  | infinite (negative : Bool)
  | finite (negative : Bool) (mantissa : Nat) (exponent : Int)
deriving DecidableEq, Repr, Inhabited

/-- `num / den` rounded to the nearest natural, a half to the even one. -/
def roundDiv (num den : Nat) : Nat :=
  let q := num / den
  let r := num % den
  if 2 * r < den then q else if den < 2 * r then q + 1 else q + q % 2

namespace Double

/-- the exponent of the smallest positive number -/
def minExponent : Int := -1074

/-- the exponent of the largest finite numbers -/
def maxExponent : Int := 971

/-- zero, which keeps its sign -/
def zero (negative : Bool) : Double := .finite negative 0 minExponent

/-- a finite number, or the infinity that takes its place when the exponent is too large -/
def pack (negative : Bool) (mantissa : Nat) (exponent : Int) : Double :=
  let carried := decide (mantissa = Nat.pow 2 53)
  let m := if carried then Nat.pow 2 52 else mantissa
  let e := if carried then exponent + 1 else exponent
  if maxExponent < e then .infinite negative else .finite negative m e

/-- `num · 2 ^ shift` as a numerator and a denominator over `den` -/
def shiftRatio (num den : Nat) (shift : Int) : Nat × Nat :=
  if 0 ≤ shift then (num * Nat.pow 2 shift.toNat, den)
  else (num, den * Nat.pow 2 (-shift).toNat)

/-- the largest `e` with `2 ^ e ≤ num / den`, for positive `num` and `den` -/
def ratioLog (num den : Nat) : Int :=
  let e : Int := (num.log2 : Int) - den.log2
  let (n, d) := shiftRatio num den (-e)
  if d ≤ n then e else e - 1

/-- The number nearest to `num / den`, a tie going to the even mantissa; past the largest number
the infinity. -/
def ofRatio (negative : Bool) (num den : Nat) : Double :=
  if num = 0 then zero negative
  else
    let e := max (ratioLog num den - 52) minExponent
    let (n, d) := shiftRatio num den (-e)
    pack negative (roundDiv n d) e

/-- The number nearest to `± mantissa · 2 ^ exponent`. Far outside the range the power of two is not
computed. -/
def ofDyadic (negative : Bool) (mantissa : Nat) (exponent : Int) : Double :=
  let size : Int := mantissa.log2 + exponent
  if mantissa = 0 ∨ size < -1100 then zero negative
  else if 1100 < size then .infinite negative
  else
    let (n, d) := shiftRatio mantissa 1 exponent
    ofRatio negative n d

/-- The number nearest to `± digits · 10 ^ exponent`. Far outside the range the power of ten is not
computed. -/
def ofDecimal (negative : Bool) (digits : Nat) (exponent : Int) : Double :=
  if digits = 0 then zero negative
  else if 400 < (digits.log2 : Int) * 3 / 10 + exponent then .infinite negative
  else if (digits.log2 : Int) + 3 * exponent < -1100 then zero negative
  else if 0 ≤ exponent then ofRatio negative (digits * Nat.pow 10 exponent.toNat) 1
  else ofRatio negative digits (Nat.pow 10 (-exponent).toNat)

/-- the number nearest to an integer -/
def ofInt (n : Int) : Double := ofRatio (n < 0) n.natAbs 1

/-- whether the sign is a minus; not-a-number has none -/
def isNegative : Double → Bool
  | .nan => false
  | .infinite negative => negative
  | .finite negative _ _ => negative

/-- whether this is a zero of either sign -/
def isZero : Double → Bool
  | .finite _ 0 _ => true
  | _ => false

/-- The product with `2 ^ power`, rounded once. -/
def timesPowerOfTwo (power : Int) : Double → Double
  | .nan => .nan
  | .infinite negative => .infinite negative
  | .finite negative mantissa exponent => ofDyadic negative mantissa (exponent + power)

/-- the number with the other sign -/
def negate : Double → Double
  | .nan => .nan
  | .infinite negative => .infinite (!negative)
  | .finite negative mantissa exponent => .finite (!negative) mantissa exponent

/-- The product, rounded once. -/
def mul : Double → Double → Double
  | .finite s m e, .finite t n f => ofDyadic (s != t) (m * n) (e + f)
  | .nan, _ | _, .nan => .nan
  | a, b => if a.isZero || b.isZero then .nan else .infinite (a.isNegative != b.isNegative)

/-- The sum, rounded once; of opposite numbers it is the positive zero. -/
def add : Double → Double → Double
  | .finite s m e, .finite t n f =>
    let low := min e f
    let a : Int := m * Nat.pow 2 (e - low).toNat
    let b : Int := n * Nat.pow 2 (f - low).toNat
    let sum := (if s then -a else a) + (if t then -b else b)
    if sum = 0 then zero (s && t) else ofDyadic (sum < 0) sum.natAbs low
  | .nan, _ | _, .nan => .nan
  | .infinite s, .infinite t => if s = t then .infinite s else .nan
  | .infinite s, _ => .infinite s
  | _, .infinite t => .infinite t

/-- the integer part, with the fraction dropped; none for not-a-number and the infinities -/
def truncate? : Double → Option Int
  | .finite negative mantissa exponent =>
    let (n, d) := shiftRatio mantissa 1 exponent
    let q : Int := (n / d : Nat)
    some (if negative then -q else q)
  | _ => none

/-- the largest integer not above the number -/
def floor? : Double → Option Int
  | .finite negative mantissa exponent =>
    let (n, d) := shiftRatio mantissa 1 exponent
    some (if negative then (-(n : Int)) / d else (n / d : Nat))
  | _ => none

end Double

/-- A point of the extended number line, on which integers and numbers are compared exactly. -/
inductive Extended where
  | below
  | ratio (num : Int) (den : Nat)
  | above
deriving DecidableEq, Repr

namespace Extended

/-- the point of an integer -/
def ofInt (n : Int) : Extended := .ratio n 1

/-- the strict order of points -/
def lt : Extended → Extended → Bool
  | .below, .below => false
  | .below, _ => true
  | .ratio _ _, .below => false
  | .ratio a b, .ratio c d => a * d < c * b
  | .ratio _ _, .above => true
  | .above, _ => false

/-- whether two points are one -/
def equal : Extended → Extended → Bool
  | .below, .below => true
  | .ratio a b, .ratio c d => a * d = c * b
  | .above, .above => true
  | _, _ => false

end Extended

namespace Double

/-- the point of a number; not-a-number has none -/
def extended? : Double → Option Extended
  | .nan => none
  | .infinite true => some .below
  | .infinite false => some .above
  | .finite negative mantissa exponent =>
    let (n, d) := shiftRatio mantissa 1 exponent
    some (.ratio (if negative then -(n : Int) else n) d)

/-- `a < b`, false when either is not a number -/
def lt (a b : Double) : Bool :=
  match a.extended?, b.extended? with
  | some x, some y => x.lt y
  | _, _ => false

/-- `a = b` as numbers: the two zeros are equal and not-a-number equals nothing -/
def equal (a b : Double) : Bool :=
  match a.extended?, b.extended? with
  | some x, some y => x.equal y
  | _, _ => false

/-- `a ≤ b`, false when either is not a number -/
def le (a b : Double) : Bool := a.lt b || a.equal b

end Double

end MeshOperator
