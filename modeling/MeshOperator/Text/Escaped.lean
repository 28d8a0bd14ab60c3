import MeshOperator.Text.CodePoint
import MeshOperator.Text.Digit

/-!
# Texts in JSON

A text stands between double quotes, in ASCII alone: every character outside the printable ASCII
range is escaped, beyond the basic plane as a pair of surrogates.
-/

namespace MeshOperator.Text

/-- one 16-bit unit by its number -/
def unitEscape (n : Nat) : List Char := '\\' :: 'u' :: hexText 4 n

/-- one character of a JSON text -/
def escapeChar (c : Char) : List Char :=
  let n := codePoint c
  if c = '\x22' || c = '\\' then ['\\', c]
  else if c = '\n' then ['\\', 'n']
  else if c = '\r' then ['\\', 'r']
  else if c = '\t' then ['\\', 't']
  else if n = 0x08 then ['\\', 'b']
  else if n = 0x0c then ['\\', 'f']
  else if 0x20 ≤ n && n ≤ 0x7e then [c]
  else if n ≤ 0xffff then unitEscape n
  else unitEscape (0xd800 + (n - 0x10000) / 0x400) ++ unitEscape (0xdc00 + (n - 0x10000) % 0x400)

/-- a text as JSON writes it -/
def escaped (s : List Char) : List Char := '\x22' :: s.flatMap escapeChar ++ ['\x22']

end MeshOperator.Text
