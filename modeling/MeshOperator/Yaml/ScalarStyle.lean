import MeshOperator.Text.Cut
import MeshOperator.Yaml.Tag

/-!
# Styles of written scalars

A scalar is written plain where that reads back as the same text under the same tag, else between
single quotes, and between double quotes when it holds what only an escape can show. Bytes are
written as a block of lines where there is room for one.
-/

namespace MeshOperator.Yaml

/-- How a scalar is written. -/
inductive Style where
  | plain
  | single
  | double
  | lines
deriving DecidableEq, Repr

/-- what separates words of a scalar, or its end -/
def isSeparator (c : Char) : Bool :=
  let n := c.toNat
  n = 0 || n = 0x20 || n = 0x09 || n = 0x0d || n = 0x0a || n = 0x85 || n = 0x2028 || n = 0x2029

/-- the characters that a scalar shows as they are: printable ASCII and the line feed -/
def isBare (c : Char) : Bool := c = '\n' || (0x20 ≤ c.toNat && c.toNat ≤ 0x7e)

/-- the characters that may not begin a plain scalar -/
def isReserved (c : Char) : Bool := "#,[]\x7b\x7d&*!|>'\"%@\x60".contains c

/-- whether no separator or end comes first -/
def beginsWord (s : List Char) : Bool := (s.head?.map fun c => !isSeparator c).getD false

/-- whether a first character is one that a plain scalar may have -/
def startsSafely : List Char → Bool
  | [] => true
  | c :: rest =>
    !isReserved c && ((c ≠ '?' && c ≠ ':' && c ≠ '-') || beginsWord rest)

/-- whether no colon ends a word and no number sign begins one; `previous` is the character before -/
def staysInside : (previous : Char) → List Char → Bool
  | _, [] => true
  | previous, c :: rest =>
    (c ≠ ':' || beginsWord rest) && (c ≠ '#' || !isSeparator previous) && staysInside c rest

/-- whether a space follows a line feed -/
def hasIndentedLine : List Char → Bool
  | c :: d :: rest => (c = '\n' && d = ' ') || hasIndentedLine (d :: rest)
  | _ => false

/-- whether a line feed follows a space -/
def hasOpenLine : List Char → Bool
  | c :: d :: rest => (c = ' ' && d = '\n') || hasOpenLine (d :: rest)
  | _ => false

/-- whether a character is blank between words: a space or a line feed -/
def isSpacing (c : Char) : Bool := c = ' ' || c = '\n'

/-- whether a text can be written plain, if it reads back under its tag; the empty text can -/
def allowsPlain : List Char → Bool
  | [] => true
  | c :: rest =>
    let s := c :: rest
    s.all (fun x => isBare x && x ≠ '\n') && c ≠ ' ' && s.getLast? ≠ some ' '
      && !Text.startsWith s ['-', '-', '-'] && !Text.startsWith s ['.', '.', '.']
      && startsSafely s && staysInside c rest

/-- whether a text can be written between single quotes -/
def allowsSingle (s : List Char) : Bool := s.all isBare && !hasIndentedLine s && !hasOpenLine s

/-- whether a text can be written as a block of lines -/
def allowsLines (s : List Char) : Bool :=
  !s.isEmpty && s.all isBare && !hasOpenLine s && s.getLast? ≠ some ' '

/-- the characters that end a line of a scalar, whether or not they are shown as they are -/
def endsLine (c : Char) : Bool :=
  c = '\n' || c.toNat = 0x85 || c.toNat = 0x2028 || c.toNat = 0x2029

/-- whether a text is one line and not empty, as a key before a colon must be -/
def isKeyText (s : List Char) : Bool := !s.isEmpty && !s.any endsLine

/-- The style of a scalar. `asKey` says that it stands before a colon, where no line may end. -/
def styleOf (tag : Tag) (asKey : Bool) (text : String) : Style :=
  let s := text.toList
  if tag = .binary then if allowsLines s && !asKey then .lines else .double
  else if Tag.ofSpelling text = tag && allowsPlain s && !(asKey && !isKeyText s) then .plain
  else if allowsSingle s && !(asKey && s.any endsLine) then .single
  else .double

/-- Whether a scalar in a style is written with its tag: a plain one never, since its spelling tells,
one in quotes or lines unless it is a text. -/
def Style.showsTag (style : Style) (tag : Tag) : Bool := style ≠ .plain && tag ≠ .text

end MeshOperator.Yaml
