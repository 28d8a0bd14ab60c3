/-!
# Code points

A text is made of characters, and a half of a surrogate pair is none. An escape or a number can name
such a half all the same, and it has to show where the text is written again. `ofCodePoint` holds a
half as the character of private use that is 0x100000 above it, and `codePoint` gives the half back.
So the characters U+10D800 to U+10DFFF always stand for halves, and no text holds them as themselves:
what is said of all texts is said of those without these characters.
-/

namespace MeshOperator

/-- whether a code point is half of a surrogate pair -/
def isHalf (n : Nat) : Bool := 0xd800 ≤ n && n ≤ 0xdfff

/-- how far the character that holds a half is above it -/
def halfShift : Nat := 0x100000

/-- whether a character holds half of a surrogate pair, as those from U+10D800 to U+10DFFF do -/
def holdsHalf (c : Char) : Bool := halfShift ≤ c.toNat && isHalf (c.toNat - halfShift)

/-- the code point that a character stands for -/
def codePoint (c : Char) : Nat := if holdsHalf c then c.toNat - halfShift else c.toNat

/-- the character that stands for a code point -/
def ofCodePoint (n : Nat) : Char := Char.ofNat (if isHalf n then n + halfShift else n)

/-- the order of texts by their code points -/
def textLt : List Char → List Char → Bool
  | _, [] => false
  | [], _ :: _ => true
  | a :: s, b :: t => codePoint a < codePoint b || (codePoint a = codePoint b && textLt s t)

theorem codePoint_of_not_holdsHalf {c : Char} (h : holdsHalf c = false) : codePoint c = c.toNat := by
  simp [codePoint, h]

example : codePoint (ofCodePoint 0xd83d) = 0xd83d := by decide

example : codePoint (ofCodePoint 0x1f600) = 0x1f600 := by decide

end MeshOperator
