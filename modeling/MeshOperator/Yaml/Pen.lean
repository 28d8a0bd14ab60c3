import MeshOperator.Text.CodePoint
import MeshOperator.Text.Digit
import MeshOperator.Yaml.ScalarStyle

/-!
# Writing characters of YAML

`Pen` holds what is written and where it stands: the column, whether the last thing written separates
words, and whether only indentation and marks stand on the line. The writers of scalars break lines
that pass the eightieth column at a single space.
-/

namespace MeshOperator.Yaml

/-- A text being written, its characters last first. -/
structure Pen where
  written : List Char
  column : Nat
  spaced : Bool
  fresh : Bool
deriving Repr

/-- the column past which lines are broken -/
def lineWidth : Nat := 80

namespace Pen

/-- nothing written -/
def start : Pen := ⟨[], 0, true, true⟩

/-- what is written -/
def text (p : Pen) : String := String.ofList p.written.reverse

/-- characters added -/
def put (p : Pen) (s : List Char) : Pen :=
  { p with written := s.reverse ++ p.written, column := p.column + s.length }

/-- characters added to a line whose columns no longer count -/
def putFree (p : Pen) (s : List Char) : Pen := { p with written := s.reverse ++ p.written }

/-- a line ended -/
def newLine (p : Pen) : Pen := ⟨'\n' :: p.written, 0, true, true⟩

/-- on a line of its own at an indentation -/
def indent (p : Pen) (n : Nat) : Pen :=
  let p := if !p.fresh || n < p.column || (p.column = n && !p.spaced) then p.newLine else p
  if p.column < n then
    { p.put (List.replicate (n - p.column) ' ') with spaced := true }
  else p

/-- A mark. `apart` wants a space before it; `leads` lets what follows stand on the same line as the
beginning of a block. -/
def mark (p : Pen) (s : String) (apart leads : Bool) : Pen :=
  let p := if p.spaced || !apart then p else p.put [' ']
  { p.put s.toList with spaced := false, fresh := p.fresh && leads }

/-- an opening mark after which no space is wanted -/
def opening (p : Pen) (s : String) : Pen := { p.mark s true false with spaced := true }

/-- as within a word -/
def inWord (p : Pen) : Pen := { p with spaced := false, fresh := false }

/-! ### Plain scalars -/

/-- the next word of a text, the spaces before it counted apart -/
def nextWord (s : List Char) : Nat × List Char × List Char :=
  let spaces := s.takeWhile (· = ' ')
  let rest := s.dropWhile (· = ' ')
  (spaces.length, rest.takeWhile (· ≠ ' '), rest.dropWhile (· ≠ ' '))

/-- the words of a plain scalar; `fuel` bounds their number -/
def plainWords (indentation : Nat) (split : Bool) : (fuel : Nat) → List Char → Pen → Pen
  | 0, _, p => p
  | fuel + 1, s, p =>
    if s.isEmpty then p
    else
      let (spaces, word, rest) := nextWord s
      let p :=
        if spaces = 1 && lineWidth < p.column && split then (p.indent indentation).inWord
        else p.put (List.replicate spaces ' ')
      plainWords indentation split fuel rest (p.put word)

/-- a plain scalar -/
def plain (p : Pen) (indentation : Nat) (split : Bool) (s : List Char) : Pen :=
  if s.isEmpty then p
  else
    let p := if p.spaced then p else p.put [' ']
    plainWords indentation split s.length s p.inWord

/-! ### Single quotes -/

/-- the characters of a run without spacing, with quotes doubled -/
def doubledQuotes (s : List Char) : List Char := s.flatMap fun c => if c = '\x27' then [c, c] else [c]

/-- The inside of a scalar in single quotes: runs of spaces, of line feeds and of other characters.
`first` says that nothing of it is written. A run of line feeds gets one more. `fuel` bounds the
runs. -/
def singleRuns (indentation : Nat) (split : Bool) : (fuel : Nat) → (first : Bool) → List Char → Pen → Pen
  | 0, _, _, p => p
  | fuel + 1, first, s, p =>
    match s with
    | [] => p
    | c :: _ =>
      if c = ' ' then
        let spaces := s.takeWhile (· = ' ')
        let rest := s.dropWhile (· = ' ')
        let p :=
          if spaces.length = 1 && lineWidth < p.column && split && !first && !rest.isEmpty then
            p.indent indentation
          else p.put spaces
        singleRuns indentation split fuel false rest p
      else if c = '\n' then
        let breaks := s.takeWhile (· = '\n')
        let p := breaks.foldl (fun p _ => p.newLine) p.newLine
        singleRuns indentation split fuel false (s.dropWhile (· = '\n')) (p.indent indentation)
      else
        let run := s.takeWhile fun c => !isSpacing c
        singleRuns indentation split fuel false (s.dropWhile fun c => !isSpacing c)
          (p.put (doubledQuotes run))

/-- a scalar in single quotes -/
def single (p : Pen) (indentation : Nat) (split : Bool) (s : List Char) : Pen :=
  (singleRuns indentation split s.length true s (p.mark "'" true false)).mark "'" false false

/-! ### Double quotes -/

/-- the letter of an escape -/
def escapeLetter? (c : Char) : Option Char :=
  let n := c.toNat
  if n = 0 then some '0'
  else if n = 7 then some 'a'
  else if n = 8 then some 'b'
  else if n = 9 then some 't'
  else if n = 0xa then some 'n'
  else if n = 0xb then some 'v'
  else if n = 0xc then some 'f'
  else if n = 0xd then some 'r'
  else if n = 0x1b then some 'e'
  else if c = '\x22' || c = '\\' then some c
  else if n = 0x85 then some 'N'
  else if n = 0xa0 then some '_'
  else if n = 0x2028 then some 'L'
  else if n = 0x2029 then some 'P'
  else none

/-- `width` hexadecimal digits with capital letters -/
def capitalHex (width n : Nat) : List Char :=
  (hexText width n).map fun c => if 0x61 ≤ c.toNat then Char.ofNat (c.toNat - 0x20) else c

/-- an escaped character -/
def escapeOf (c : Char) : List Char :=
  match escapeLetter? c with
  | some l => ['\\', l]
  | none =>
    let n := codePoint c
    if n ≤ 0xff then '\\' :: 'x' :: capitalHex 2 n
    else if n ≤ 0xffff then '\\' :: 'u' :: capitalHex 4 n
    else '\\' :: 'U' :: capitalHex 8 n

/-- whether double quotes show a character as it is -/
def isOpenChar (c : Char) : Bool :=
  0x20 ≤ c.toNat && c.toNat ≤ 0x7e && c ≠ '\x22' && c ≠ '\\'

/-- A line broken within double quotes: `held` are the characters not yet written, and a space that
begins the next line needs a backslash before it. -/
def continueLine (indentation : Nat) (held : List Char) (next : Char) (p : Pen) : Pen :=
  let p := ((p.put (held ++ ['\\'])).indent indentation).inWord
  if next = ' ' then p.put ['\\'] else p

/-- The inside of a scalar in double quotes. `index` counts the characters read, `held` has those not
yet written, last first. A line is broken where the next character would stand past the width: at a
space, at an escape and after one, but not before the last character. -/
def doubleChars (indentation : Nat) (split : Bool) (size : Nat) :
    (index : Nat) → (held : List Char) → List Char → Pen → Pen
  | _, held, [], p => p.put held.reverse
  | index, held, c :: rest, p =>
    let inside := split && 0 < index && index + 1 < size
    if isOpenChar c then
      if inside && (c = ' ' || held.isEmpty) && lineWidth < p.column + held.length then
        doubleChars indentation split size (index + 1) [c] rest
          (continueLine indentation held.reverse c p)
      else doubleChars indentation split size (index + 1) (c :: held) rest p
    else
      let p := p.put (held.reverse ++ escapeOf c)
      let p :=
        if inside && lineWidth + 1 < p.column then
          continueLine indentation [] (rest.head?.getD c) p
        else p
      doubleChars indentation split size (index + 1) [] rest p

/-- a scalar in double quotes -/
def double (p : Pen) (indentation : Nat) (split : Bool) (s : List Char) : Pen :=
  (doubleChars indentation split s.length 0 [] s (p.mark "\"" true false)).mark "\"" false false

/-! ### Lines -/

/-- a scalar of lines each ended by a line feed -/
def block (p : Pen) (indentation : Nat) (s : List Char) : Pen :=
  let lines := (Text.cut '\n' s).dropLast
  (lines.foldl (fun p line => (p.newLine.indent indentation).putFree line)
    (p.mark "|" true false)).newLine

end Pen

end MeshOperator.Yaml
