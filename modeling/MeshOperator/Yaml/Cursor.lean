import MeshOperator.Text.CodePoint

/-!
# A place in a YAML text

The classes of characters that YAML tells apart, and `Cursor`: the text that is left, with the line
and column reached.
-/

namespace MeshOperator.Yaml

/-- whether a line ends here -/
def isBreak (c : Char) : Bool :=
  c = '\n' || c = '\r' || c.toNat = 0x85 || c.toNat = 0x2028 || c.toNat = 0x2029

/-- a line break or the end of the text, which reads as the null character -/
def isBreakOrEnd (c : Char) : Bool := c.toNat = 0 || isBreak c

/-- a space, a line break or the end of the text -/
def isSpaceOrEnd (c : Char) : Bool := c = ' ' || isBreakOrEnd c

/-- a space, a tabulator, a line break or the end of the text -/
def isGap (c : Char) : Bool := c = '\t' || isSpaceOrEnd c

/-- a letter or digit of ASCII, a hyphen or an underscore -/
def isWordChar (c : Char) : Bool :=
  let n := c.toNat
  (0x30 ≤ n && n ≤ 0x39) || (0x41 ≤ n && n ≤ 0x5a) || (0x61 ≤ n && n ≤ 0x7a) || c = '-' || c = '_'

/-- the characters that a text may hold -/
def isAllowed (c : Char) : Bool :=
  let n := codePoint c
  n = 0x09 || n = 0x0a || n = 0x0d || (0x20 ≤ n && n ≤ 0x7e) || n = 0x85
    || (0xa0 ≤ n && n ≤ 0xd7ff) || (0xe000 ≤ n && n ≤ 0xfffd) || 0x10000 ≤ n

/-- the byte order mark -/
def isOrderMark (c : Char) : Bool := c.toNat = 0xfeff

/-- A place in a text: what is left of it, with its length, and how far it is from the start, in
characters, lines and columns. -/
structure Cursor where
  rest : List Char
  left : Nat
  index : Nat
  line : Nat
  column : Nat
deriving Repr, Inhabited

namespace Cursor

/-- the start of a text -/
def start (text : List Char) : Cursor := ⟨text, text.length, 0, 0, 0⟩

/-- the character `k` places ahead, the null character past the end -/
def peek (c : Cursor) (k : Nat) : Char := c.rest.getD k (Char.ofNat 0)

/-- one place on; a line break starts a line, of a carriage return and a line feed the second, and
the byte order mark takes no column -/
def step (c : Cursor) : Cursor :=
  match c.rest with
  | [] => c
  | ch :: r =>
    if (isBreak ch && ch ≠ '\r') || (ch = '\r' && r.head? ≠ some '\n') then
      ⟨r, c.left - 1, c.index + 1, c.line + 1, 0⟩
    else if isOrderMark ch then ⟨r, c.left - 1, c.index + 1, c.line, c.column⟩
    else ⟨r, c.left - 1, c.index + 1, c.line, c.column + 1⟩

/-- `n` places on -/
def forward (c : Cursor) : Nat → Cursor
  | 0 => c
  | n + 1 => c.step.forward n

/-- the characters ahead that are of a class, and the place after them -/
def run (c : Cursor) (p : Char → Bool) : List Char × Cursor :=
  let s := c.rest.takeWhile p
  (s, c.forward s.length)

/-- the place after the characters ahead that are of a class -/
def skip (c : Cursor) (p : Char → Bool) : Cursor := (c.run p).2

/-- whether the text ahead is three times a character, then a gap: a mark between documents -/
def atMark (c : Cursor) (ch : Char) : Bool :=
  c.peek 0 = ch && c.peek 1 = ch && c.peek 2 = ch && isGap (c.peek 3)

/-- whether a mark between documents is ahead -/
def atAnyMark (c : Cursor) : Bool := c.atMark '-' || c.atMark '.'

/-- A line break, if one is ahead: as a line feed, but the line and paragraph separators as they
are. -/
def lineBreak (c : Cursor) : List Char × Cursor :=
  let ch := c.peek 0
  if ch = '\r' && c.peek 1 = '\n' then (['\n'], c.forward 2)
  else if ch = '\n' || ch = '\r' || ch.toNat = 0x85 then (['\n'], c.step)
  else if isBreak ch then ([ch], c.step)
  else ([], c)

end Cursor

end MeshOperator.Yaml
