/-!
# Blank characters

`isBlank` is the class of white space, in every script, that is taken off the ends of a text;
`strip` takes it off.
-/

namespace MeshOperator

/-- White space of every script: the separators of lines, paragraphs and words, the tabulators and
line controls, and the four information separators. -/
def isBlank (c : Char) : Bool :=
  let n := c.toNat
  (0x09 ≤ n && n ≤ 0x0d) || (0x1c ≤ n && n ≤ 0x20) || n == 0x85 || n == 0xa0 || n == 0x1680
    || (0x2000 ≤ n && n ≤ 0x200a) || n == 0x2028 || n == 0x2029 || n == 0x202f || n == 0x205f
    || n == 0x3000

/-- The blanks that may surround a written number: all but the information separators. -/
def isNumberBlank (c : Char) : Bool :=
  isBlank c && !(0x1c ≤ c.toNat && c.toNat ≤ 0x1f)

namespace Text

/-- `s` without the characters of a class at its two ends -/
def stripBy (p : Char → Bool) (s : List Char) : List Char :=
  ((s.dropWhile p).reverse.dropWhile p).reverse

/-- a text without the blanks at its two ends -/
def strip (s : String) : String := String.ofList (stripBy isBlank s.toList)

end Text

end MeshOperator
