import MeshOperator.Text.Digit

/-!
# Texts as bytes

`Utf8.decode` reads the UTF-8 form of a text. At the first byte that is not part of one it stops
and says which bytes are wrong and why: no character starts with the byte, the bytes after it do
not continue it, or the input ends within a character.
-/

namespace MeshOperator.Utf8

/-- Why bytes are not the form of a text. -/
inductive Defect where
  | badStart
  | badContinuation
  | cutShort
deriving DecidableEq, Repr

/-- Where decoding stopped: `count` bytes from position `start`, of which `byte` is the first. -/
structure Failure where
  defect : Defect
  byte : UInt8
  start : Nat
  count : Nat
deriving DecidableEq, Repr

/-- the words for a defect -/
def Defect.message : Defect → String
  | .badStart => "invalid start byte"
  | .badContinuation => "invalid continuation byte"
  | .cutShort => "unexpected end of data"

/-- the sentence for a failure -/
def Failure.message (f : Failure) : String :=
  let place :=
    if f.count = 1 then
      "byte 0x" ++ String.ofList (hexText 2 f.byte.toNat) ++ " in position "
        ++ String.ofList (decimalText f.start)
    else
      "bytes in position " ++ String.ofList (decimalText f.start) ++ "-"
        ++ String.ofList (decimalText (f.start + f.count - 1))
  "'utf-8' codec can't decode " ++ place ++ ": " ++ f.defect.message

/-- How a byte starts a character: the bytes that follow, the bits it gives, and the range of the
byte after it. -/
def lead? (b : Nat) : Option (Nat × Nat × Nat × Nat) :=
  if b < 0x80 then some (0, b, 0, 0)
  else if b < 0xc2 then none
  else if b < 0xe0 then some (1, b - 0xc0, 0x80, 0xbf)
  else if b = 0xe0 then some (2, 0, 0xa0, 0xbf)
  else if b = 0xed then some (2, 0xd, 0x80, 0x9f)
  else if b < 0xf0 then some (2, b - 0xe0, 0x80, 0xbf)
  else if b = 0xf0 then some (3, 0, 0x90, 0xbf)
  else if b < 0xf4 then some (3, b - 0xf0, 0x80, 0xbf)
  else if b = 0xf4 then some (3, 4, 0x80, 0x8f)
  else none

/-- The character being read: where it started, its first byte, its bits so far, the bytes read and
the bytes to come, and the range of the next. -/
structure Partial where
  start : Nat
  first : UInt8
  bits : Nat
  seen : Nat
  missing : Nat
  low : Nat
  high : Nat

/-- reads the bytes from position `at`, within the character `p` if there is one -/
def decodeFrom : Nat → Option Partial → List UInt8 → Except Failure (List Char)
  | _, none, [] => .ok []
  | _, some p, [] => .error ⟨.cutShort, p.first, p.start, p.seen⟩
  | pos, none, b :: rest =>
    match lead? b.toNat with
    | none => .error ⟨.badStart, b, pos, 1⟩
    | some (0, bits, _, _) => (decodeFrom (pos + 1) none rest).map (Char.ofNat bits :: ·)
    | some (n + 1, bits, low, high) => decodeFrom (pos + 1) (some ⟨pos, b, bits, 1, n, low, high⟩) rest
  | pos, some p, b :: rest =>
    if p.low ≤ b.toNat && b.toNat ≤ p.high then
      let bits := p.bits * 64 + (b.toNat - 0x80)
      match p.missing with
      | 0 => (decodeFrom (pos + 1) none rest).map (Char.ofNat bits :: ·)
      | n + 1 => decodeFrom (pos + 1) (some ⟨p.start, p.first, bits, p.seen + 1, n, 0x80, 0xbf⟩) rest
    else .error ⟨.badContinuation, p.first, p.start, p.seen⟩

/-- the text that the bytes are the UTF-8 form of -/
def decode (bytes : List UInt8) : Except Failure (List Char) := decodeFrom 0 none bytes

end MeshOperator.Utf8
