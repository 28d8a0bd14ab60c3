/-!
# Bytes as base-64 text

Reading is lenient: characters outside the alphabet are passed over, and padding that completes a
group of four ends the text. Writing breaks the text into lines of 76 characters.
-/

namespace MeshOperator.Base64

/-- the character of a value below 64 -/
def digit (n : Nat) : Char :=
  if n < 26 then Char.ofNat (0x41 + n)
  else if n < 52 then Char.ofNat (0x61 + (n - 26))
  else if n < 62 then Char.ofNat (0x30 + (n - 52))
  else if n = 62 then '+' else '/'

/-- the value of a character of the alphabet -/
def value? (c : Char) : Option Nat :=
  let n := c.toNat
  if 0x41 ≤ n && n ≤ 0x5a then some (n - 0x41)
  else if 0x61 ≤ n && n ≤ 0x7a then some (n - 0x61 + 26)
  else if 0x30 ≤ n && n ≤ 0x39 then some (n - 0x30 + 52)
  else if c = '+' then some 62
  else if c = '/' then some 63
  else none

/-- Reads on with `filled` characters of the group of four seen, `left` the bits not yet given out
and `pads` the paddings seen in a row. None when the text ends within a group. -/
def decodeFrom : (filled left pads : Nat) → List Char → Option (List UInt8)
  | filled, _, _, [] => if filled = 0 then some [] else none
  | filled, left, pads, c :: rest =>
    if c = '=' then
      if 2 ≤ filled && 4 ≤ filled + (pads + 1) then some []
      else decodeFrom filled left (if 2 ≤ filled then pads + 1 else pads) rest
    else
      match value? c with
      | none => decodeFrom filled left pads rest
      | some v =>
        match filled with
        | 0 => decodeFrom 1 v 0 rest
        | 1 => (decodeFrom 2 (v % 16) 0 rest).map ((left * 4 + v / 16).toUInt8 :: ·)
        | 2 => (decodeFrom 3 (v % 4) 0 rest).map ((left * 16 + v / 4).toUInt8 :: ·)
        | _ => (decodeFrom 0 0 0 rest).map ((left * 64 + v).toUInt8 :: ·)

/-- the bytes that a text stands for -/
def decode? (s : List Char) : Option (List UInt8) := decodeFrom 0 0 0 s

/-- the characters of the bytes, in groups of four with padding -/
def encodeGroups : List UInt8 → List Char
  | a :: b :: c :: rest =>
    let n := a.toNat * 65536 + b.toNat * 256 + c.toNat
    digit (n / 262144) :: digit (n / 4096 % 64) :: digit (n / 64 % 64) :: digit (n % 64)
      :: encodeGroups rest
  | [a, b] =>
    let n := a.toNat * 1024 + b.toNat * 4
    [digit (n / 4096), digit (n / 64 % 64), digit (n % 64), '=']
  | [a] => [digit (a.toNat / 4), digit (a.toNat % 4 * 16), '=', '=']
  | [] => []

/-- lines of at most `width` characters, each closed by a line feed; `fuel` bounds their number -/
def lines (width : Nat) : Nat → List Char → List Char
  | 0, _ => []
  | _ + 1, [] => []
  | fuel + 1, s => s.take width ++ '\n' :: lines width fuel (s.drop width)

/-- the lines of base-64 text for the bytes -/
def encodeLines (bytes : List UInt8) : List Char :=
  let s := encodeGroups bytes
  lines 76 s.length s

example : decode? "aGk=".toList = some [0x68, 0x69] := by decide
example : String.ofList (encodeLines [0x68, 0x69]) = "aGk=\n" := by decide

end MeshOperator.Base64
