/-!
# Decimal digits of every script

Each script that has decimal digits has them in one run of ten, from zero up.
-/

namespace MeshOperator

/-- the code points of the zeros -/
def decimalZeros : List Nat := [
  0x30, 0x660, 0x6f0, 0x7c0, 0x966, 0x9e6, 0xa66, 0xae6, 0xb66, 0xbe6, 0xc66, 0xce6, 0xd66, 0xde6,
   0xe50, 0xed0, 0xf20, 0x1040, 0x1090, 0x17e0, 0x1810, 0x1946, 0x19d0, 0x1a80, 0x1a90, 0x1b50,
   0x1bb0, 0x1c40, 0x1c50, 0xa620, 0xa8d0, 0xa900, 0xa9d0, 0xa9f0, 0xaa50, 0xabf0, 0xff10,
   0x104a0, 0x10d30, 0x11066, 0x110f0, 0x11136, 0x111d0, 0x112f0, 0x11450, 0x114d0, 0x11650,
   0x116c0, 0x11730, 0x118e0, 0x11950, 0x11c50, 0x11d50, 0x11da0, 0x16a60, 0x16ac0, 0x16b50,
   0x1d7ce, 0x1d7d8, 0x1d7e2, 0x1d7ec, 0x1d7f6, 0x1e140, 0x1e2f0, 0x1e950, 0x1fbf0]

/-- the value of a decimal digit of any script -/
def digitValue? (c : Char) : Option Nat :=
  (decimalZeros.find? fun z => z ≤ c.toNat && c.toNat < z + 10).map (c.toNat - ·)

/-- whether `c` is one of `0` to `9` -/
def isDigit (c : Char) : Bool := 0x30 ≤ c.toNat && c.toNat ≤ 0x39

/-- the value of a digit of bases up to thirty-six: `0` to `9`, then letters of either case -/
def digitOfBase? (base : Nat) (c : Char) : Option Nat :=
  let n := c.toNat
  let v :=
    if isDigit c then n - 0x30
    else if 0x41 ≤ n && n ≤ 0x5a then n - 0x41 + 10
    else if 0x61 ≤ n && n ≤ 0x7a then n - 0x61 + 10
    else base
  if v < base then some v else none

/-- the digit of a value below sixteen, in small letters -/
def hexDigit (n : Nat) : Char := if n < 10 then Char.ofNat (0x30 + n) else Char.ofNat (0x57 + n)

/-- the last `width` hexadecimal digits of `n`, most significant first -/
def hexText : Nat → Nat → List Char
  | 0, _ => []
  | width + 1, n => hexText width (n / 16) ++ [hexDigit (n % 16)]

/-- the written form of a natural in base ten -/
def decimalText (n : Nat) : List Char := Nat.toDigits 10 n

/-- the written form of an integer in base ten -/
def integerText (n : Int) : List Char :=
  if n < 0 then '-' :: decimalText n.natAbs else decimalText n.natAbs

/-- `n` in base ten, with zeros in front up to `width` digits -/
def paddedText (width n : Nat) : List Char :=
  let s := decimalText n
  List.replicate (width - s.length) '0' ++ s

example : (List.range 10).map (fun n => digitValue? (Char.ofNat (0x0660 + n)))
    = (List.range 10).map some := by decide +kernel

end MeshOperator
