import MeshOperator.Yaml.Scalars
import MeshOperator.Yaml.Token

/-!
# The tokens of a text

`Tokens.ofText` reads a text into tokens. Indentation becomes the beginnings and ends of blocks. That
something was a key shows only at the colon after it, so for each flow collection that is open, and
for the block around them, the lexer keeps the place where a key may have begun, and puts the key
mark there when the colon comes.
-/

namespace MeshOperator.Yaml

/-- A place where a key may have begun: the number of tokens before it, its place in the text, and
whether the block's indentation demands that it be a key. -/
structure KeyPlace where
  before : Nat
  required : Bool
  index : Nat
  line : Nat
  column : Nat
deriving Repr

/-- A lexer at work. The tokens found come last first. -/
structure Lexer where
  cursor : Cursor
  found : List Token
  count : Nat
  flow : Nat
  indent : Int
  outer : List Int
  keyAllowed : Bool
  keys : List (Nat × KeyPlace)
  done : Bool
deriving Repr

namespace Lexer

/-- a lexer at the start of a text -/
def start (text : List Char) : Lexer :=
  ⟨Cursor.start text, [], 0, 0, -1, [], true, [], false⟩

/-- with one more token -/
def emit (x : Lexer) (t : Token) : Lexer := { x with found := t :: x.found, count := x.count + 1 }

/-- with the cursor moved -/
def moveTo (x : Lexer) (c : Cursor) : Lexer := { x with cursor := c }

/-- with a mark of `n` characters as a token -/
def mark (x : Lexer) (t : Token) (n : Nat) : Lexer := (x.emit t).moveTo (x.cursor.forward n)

/-- with keys allowed or not -/
def allowKey (x : Lexer) (allowed : Bool) : Lexer := { x with keyAllowed := allowed }

/-- Passes blanks, comments and line ends; a line end outside flow collections allows a key. `fuel`
bounds the lines. -/
def skipGaps : (fuel : Nat) → Lexer → Lexer
  | 0, x => x
  | fuel + 1, x =>
    let c := if x.cursor.index = 0 && isOrderMark (x.cursor.peek 0) then x.cursor.step else x.cursor
    let c := c.skip (· = ' ')
    let c := if c.peek 0 = '#' then c.skip (fun ch => !isBreakOrEnd ch) else c
    if isBreak (c.peek 0) then
      let x := x.moveTo c.lineBreak.2
      skipGaps fuel (if x.flow = 0 then x.allowKey true else x)
    else x.moveTo c

/-- whether a place can no longer be a key: it is on an earlier line or too far back -/
def isStale (x : Lexer) (k : KeyPlace) : Bool :=
  k.line ≠ x.cursor.line || k.index + 1024 < x.cursor.index

/-- forgets the places that can no longer be keys, which no indentation may have demanded -/
def dropStale (x : Lexer) : Except Fault Lexer :=
  if x.keys.any fun k => x.isStale k.2 && k.2.required then .error .yaml
  else .ok { x with keys := x.keys.filter fun k => !x.isStale k.2 }

/-- forgets the place kept for the collection at hand -/
def dropKey (x : Lexer) : Except Fault Lexer :=
  if x.keys.any fun k => k.1 = x.flow && k.2.required then .error .yaml
  else .ok { x with keys := x.keys.filter fun k => k.1 ≠ x.flow }

/-- keeps the place at hand as one where a key may begin, where keys are allowed -/
def saveKey (x : Lexer) : Except Fault Lexer :=
  if x.keyAllowed then do
    let required := x.flow = 0 && x.indent = x.cursor.column
    let y ← x.dropKey
    let k := ⟨x.count, required, x.cursor.index, x.cursor.line, x.cursor.column⟩
    return { y with keys := (x.flow, k) :: y.keys }
  else .ok x

/-- the blocks that a column closes, of those around -/
def closedBy (column : Int) : Int → List Int → Nat × Int × List Int
  | indent, [] => if column < indent then (1, -1, []) else (0, indent, [])
  | indent, i :: is =>
    if column < indent then
      let (n, indent, is) := closedBy column i is
      (n + 1, indent, is)
    else (0, indent, i :: is)

/-- closes the blocks indented deeper than a column; flow collections know no indentation -/
def closeBlocks (x : Lexer) (column : Int) : Lexer :=
  if x.flow ≠ 0 then x
  else
    let (n, indent, outer) := closedBy column x.indent x.outer
    { x with
      found := List.replicate n .blockEnd ++ x.found
      count := x.count + n
      indent := indent
      outer := outer }

/-- opens a block at a column deeper than the one around -/
def deepen (x : Lexer) (column : Int) : Bool × Lexer :=
  if x.indent < column then (true, { x with indent := column, outer := x.indent :: x.outer })
  else (false, x)

/-- opens a block of a kind at the cursor's column, if that is deeper than the one around -/
def openBlock (x : Lexer) (t : Token) : Lexer :=
  let (deeper, x) := x.deepen x.cursor.column
  if deeper then x.emit t else x

/-- the tokens with some put in after the first `before` -/
def insertAt (x : Lexer) (before : Nat) (ts : List Token) : Lexer :=
  let later := x.count - before
  { x with
    found := x.found.take later ++ ts.reverse ++ x.found.drop later
    count := x.count + ts.length }

/-- the end of the text, which closes everything -/
def atEnd (x : Lexer) : Except Fault Lexer := do
  let x ← (x.closeBlocks (-1)).dropKey
  return { (x.emit .textEnd) with keyAllowed := false, keys := [], done := true }

/-- a mark between documents -/
def documentMark (x : Lexer) (t : Token) : Except Fault Lexer := do
  let x ← (x.closeBlocks (-1)).dropKey
  return (x.mark t 3).allowKey false

/-- a directive -/
def directive (x : Lexer) : Except Fault Lexer := do
  let x ← (x.closeBlocks (-1)).dropKey
  let (name, c) := x.cursor.step.run isWordChar
  if name.isEmpty || !isSpaceOrEnd (c.peek 0) then .error .yaml
  else
    let (t, c) ←
      if name = "YAML".toList then do
        let (major, c) ← versionValue c
        pure (Token.version major, c)
      else if name = "TAG".toList then do
        let ((handle, expansion), c) ← handleValue c
        pure (Token.handle handle expansion, c)
      else pure (Token.directive, c.skip fun ch => !isBreakOrEnd ch)
    let c ← restOfLine c
    return ((x.emit t).moveTo c).allowKey false

/-- the beginning of a flow collection -/
def flowStart (x : Lexer) (t : Token) : Except Fault Lexer := do
  let x ← x.saveKey
  return ({ x with flow := x.flow + 1 }.mark t 1).allowKey true

/-- the end of a flow collection -/
def flowEnd (x : Lexer) (t : Token) : Except Fault Lexer := do
  let x ← x.dropKey
  return ({ x with flow := x.flow - 1 }.mark t 1).allowKey false

/-- the comma between entries of a flow collection -/
def flowEntry (x : Lexer) : Except Fault Lexer := do
  let x ← (x.allowKey true).dropKey
  return x.mark .flowEntry 1

/-- the hyphen before an entry of a block sequence -/
def blockEntry (x : Lexer) : Except Fault Lexer := do
  if x.flow = 0 && !x.keyAllowed then .error .yaml
  else
    let x := if x.flow = 0 then x.openBlock .blockSequence else x
    let x ← (x.allowKey true).dropKey
    return x.mark .blockEntry 1

/-- the question mark before a key -/
def keyMark (x : Lexer) : Except Fault Lexer := do
  if x.flow = 0 && !x.keyAllowed then .error .yaml
  else
    let x := if x.flow = 0 then x.openBlock .blockMapping else x
    let x ← (x.allowKey (x.flow = 0)).dropKey
    return x.mark .key 1

/-- the colon before a value, which makes a key of the place kept -/
def valueMark (x : Lexer) : Except Fault Lexer :=
  match x.keys.find? fun k => k.1 = x.flow with
  | some (_, k) =>
    let x := { x with keys := x.keys.filter fun k => k.1 ≠ x.flow }
    let (deeper, x) := if x.flow = 0 then x.deepen k.column else (false, x)
    let x := x.insertAt k.before (if deeper then [.blockMapping, .key] else [.key])
    .ok ((x.allowKey false).mark .value 1)
  | none => do
    if x.flow = 0 && !x.keyAllowed then .error .yaml
    else
      let x := if x.flow = 0 then x.openBlock .blockMapping else x
      let x ← (x.allowKey (x.flow = 0)).dropKey
      return x.mark .value 1

/-- an alias, an anchor or a tag, which may begin a key -/
def property (x : Lexer) : Except Fault Lexer := do
  let x ← x.saveKey
  let c := x.cursor
  let (t, c) ←
    if c.peek 0 = '!' then do
      let ((handle, suffix), c) ← tagParts c
      pure (Token.tag handle suffix, c)
    else do
      let (name, c') ← anchorName c
      let name := String.ofList name
      pure (if c.peek 0 = '*' then Token.alias name else Token.anchor name, c')
  return ((x.emit t).moveTo c).allowKey false

/-- a block scalar -/
def block (x : Lexer) (folded : Bool) : Except Fault Lexer := do
  let x ← (x.allowKey true).dropKey
  let (s, c) ← blockScalar folded x.indent x.cursor
  return (x.emit (.scalar (String.ofList s) false)).moveTo c

/-- a scalar in quotes -/
def quoted (x : Lexer) (double : Bool) : Except Fault Lexer := do
  let x ← x.saveKey
  let (s, c) ← quotedScalar double x.cursor
  return ((x.emit (.scalar (String.ofList s) false)).moveTo c).allowKey false

/-- a plain scalar -/
def plain (x : Lexer) : Except Fault Lexer := do
  let x ← x.saveKey
  let (s, broken, c) := plainScalar (x.flow ≠ 0) x.indent x.cursor
  return ((x.emit (.scalar (String.ofList s) true)).moveTo c).allowKey broken

/-- the next tokens -/
def next (x : Lexer) : Except Fault Lexer := do
  let x ← (skipGaps (x.cursor.left + 1) x).dropStale
  let x := x.closeBlocks x.cursor.column
  let c := x.cursor
  let ch := c.peek 0
  let inFlow := x.flow ≠ 0
  if ch.toNat = 0 then x.atEnd
  else if ch = '%' && c.column = 0 then x.directive
  else if c.column = 0 && c.atMark '-' then x.documentMark .documentStart
  else if c.column = 0 && c.atMark '.' then x.documentMark .documentEnd
  else if ch = '[' then x.flowStart .flowSequence
  else if ch = '\x7b' then x.flowStart .flowMapping
  else if ch = ']' then x.flowEnd .flowSequenceEnd
  else if ch = '\x7d' then x.flowEnd .flowMappingEnd
  else if ch = ',' then x.flowEntry
  else if ch = '-' && isGap (c.peek 1) then x.blockEntry
  else if ch = '?' && (inFlow || isGap (c.peek 1)) then x.keyMark
  else if ch = ':' && (inFlow || isGap (c.peek 1)) then x.valueMark
  else if ch = '*' || ch = '&' || ch = '!' then x.property
  else if ch = '|' && !inFlow then x.block false
  else if ch = '>' && !inFlow then x.block true
  else if ch = '\x27' then x.quoted false
  else if ch = '\x22' then x.quoted true
  else if startsPlain inFlow c then x.plain
  else .error .yaml

/-- How many tokens can be taken: up to the first that may turn out to begin a key. -/
def ready (x : Lexer) : Nat := x.keys.foldl (fun n k => min n k.2.before) x.count

/-- The tokens from here on, of which `taken` were taken. A token that may begin a key waits for the
tokens after it, so what is wrong with these is found before it is taken. `fuel` bounds the steps. -/
def run : (fuel : Nat) → (taken : Nat) → Lexer → Tokens
  | 0, _, x => ⟨x.found.reverse, some .yaml⟩
  | fuel + 1, taken, x =>
    let stop (taken : Nat) (f : Fault) : Tokens := ⟨x.found.reverse.take taken, some f⟩
    if x.done then ⟨x.found.reverse, none⟩
    else
      match if x.count ≤ taken then .ok x else x.dropStale with
      | .error f => stop taken f
      | .ok x =>
        let taken := x.ready
        match x.next with
        | .ok y => run fuel taken y
        | .error f => stop taken f

end Lexer

/-- The tokens of a text. Every step but the last passes at least one character. -/
def Tokens.ofText (text : List Char) : Tokens :=
  if text.all isAllowed then Lexer.run (text.length + 2) 0 (Lexer.start text) else ⟨[], some .yaml⟩

end MeshOperator.Yaml
