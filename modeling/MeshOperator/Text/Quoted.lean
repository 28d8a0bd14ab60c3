import MeshOperator.Text.CodePoint
import MeshOperator.Text.Digit
import MeshOperator.Text.Printable

/-!
# Quoted texts

A quoted text stands between single quotes, or between double quotes when it holds a single quote
and no double one. The quote, the backslash and every character that is not printable are escaped.
Byte strings are quoted the same way, after a `b`, with only the printable ASCII characters shown.
-/

namespace MeshOperator.Text

/-- the quote that a text is put between -/
def quoteFor (s : List Char) : Char :=
  if s.contains '\x27' && !s.contains '\x22' then '\x22' else '\x27'

/-- the named escapes shared by texts and byte strings -/
def namedEscape? (quote c : Char) : Option (List Char) :=
  if c = quote || c = '\\' then some ['\\', c]
  else if c = '\n' then some ['\\', 'n']
  else if c = '\r' then some ['\\', 'r']
  else if c = '\t' then some ['\\', 't']
  else none

/-- a code point by its number, in two, four or eight hexadecimal digits -/
def numberEscape (n : Nat) : List Char :=
  if n ≤ 0xff then '\\' :: 'x' :: hexText 2 n
  else if n ≤ 0xffff then '\\' :: 'u' :: hexText 4 n
  else '\\' :: 'U' :: hexText 8 n

/-- one character of a quoted text -/
def quoteChar (quote c : Char) : List Char :=
  match namedEscape? quote c with
  | some e => e
  | none => if isPrintable c then [c] else numberEscape (codePoint c)

/-- a text between quotes -/
def quoted (s : List Char) : List Char :=
  let q := quoteFor s
  q :: s.flatMap (quoteChar q) ++ [q]

/-- a byte string between quotes -/
def quotedBytes (bytes : List UInt8) : List Char :=
  let s := bytes.map fun b => Char.ofNat b.toNat
  let q := quoteFor s
  let one (c : Char) : List Char :=
    match namedEscape? q c with
    | some e => e
    | none => if 0x20 ≤ c.toNat && c.toNat < 0x7f then [c] else numberEscape c.toNat
  'b' :: q :: s.flatMap one ++ [q]

example : String.ofList (quoted "it's".toList) = "\"it's\"" := by decide
example : String.ofList (quoted "a\n\\".toList) = "'a\\n\\\\'" := by decide

end MeshOperator.Text
