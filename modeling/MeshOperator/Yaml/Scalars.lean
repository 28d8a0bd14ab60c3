import MeshOperator.Yaml.Cursor
import MeshOperator.Fault
import MeshOperator.Text.Utf8

/-!
# Scalars, properties and directives in a YAML text

Each function reads one construct at a place in the text and gives its content and the place after
it: scalars in quotes, in blocks and plain, the names of anchors, tags, and directives.
-/

namespace MeshOperator.Yaml

/-! ### Scalars in quotes -/

/-- the character that an escape of one letter stands for -/
def escapeValue? (c : Char) : Option Char :=
  match c with
  | '0' => some (Char.ofNat 0)
  | 'a' => some (Char.ofNat 7)
  | 'b' => some (Char.ofNat 8)
  | 't' => some '\t'
  | '\t' => some '\t'
  | 'n' => some '\n'
  | 'v' => some (Char.ofNat 0x0b)
  | 'f' => some (Char.ofNat 0x0c)
  | 'r' => some '\r'
  | 'e' => some (Char.ofNat 0x1b)
  | ' ' => some ' '
  | '\x22' => some '\x22'
  | '\\' => some '\\'
  | '/' => some '/'
  | 'N' => some (Char.ofNat 0x85)
  | '_' => some (Char.ofNat 0xa0)
  | 'L' => some (Char.ofNat 0x2028)
  | 'P' => some (Char.ofNat 0x2029)
  | _ => none

/-- the digits that an escape by number has after its letter -/
def escapeWidth? (c : Char) : Option Nat :=
  match c with
  | 'x' => some 2
  | 'u' => some 4
  | 'U' => some 8
  | _ => none

/-- the number that hexadecimal digits write, if they are all such digits and there are enough -/
def hexValue? (width : Nat) (s : List Char) : Option Nat :=
  let ds := (s.take width).map (digitOfBase? 16)
  if ds.length = width && ds.all Option.isSome then
    some (ds.foldl (fun n d => n * 16 + d.getD 0) 0)
  else none

/-- the character of a number, which is a fault where no character has it -/
def charOfNumber (n : Nat) : Except Fault Char :=
  if 0x110000 ≤ n then .error (.noCharacter n) else .ok (ofCodePoint n)

/-- the empty lines within a scalar in quotes; `fuel` bounds their number -/
def quotedBreaks : (fuel : Nat) → Cursor → Except Fault (List Char × Cursor)
  | 0, c => .ok ([], c)
  | fuel + 1, c =>
    if c.atAnyMark then .error .yaml
    else
      let c := c.skip fun ch => ch = ' ' || ch = '\t'
      if isBreak (c.peek 0) then do
        let (b, c) := c.lineBreak
        let (bs, c) ← quotedBreaks fuel c
        return (b ++ bs, c)
      else .ok ([], c)

/-- one line break folds to a space; of several the first is dropped -/
def foldBreaks (first : List Char) (others : List Char) : List Char :=
  if first ≠ ['\n'] then first ++ others else if others.isEmpty then [' '] else others

/-- an escape in double quotes, at the character after the backslash -/
def quotedEscape (c : Cursor) : Except Fault (List Char × Cursor) :=
  let ch := c.peek 0
  match escapeValue? ch, escapeWidth? ch with
  | some v, _ => .ok ([v], c.step)
  | none, some width =>
    match hexValue? width (c.step.rest) with
    | none => .error .yaml
    | some n => do return ([← charOfNumber n], c.step.forward width)
  | none, none =>
    if isBreak ch then
      let (_, c) := c.lineBreak
      quotedBreaks (c.left + 1) c
    else .error .yaml

/-- the rest of a scalar in quotes, with the closing quote; `fuel` bounds the pieces -/
def quotedRest (double : Bool) : (fuel : Nat) → Cursor → Except Fault (List Char × Cursor)
  | 0, _ => .error .yaml
  | fuel + 1, c =>
    let ch := c.peek 0
    let quote := if double then '\x22' else '\x27'
    if ch = quote then
      if !double && c.peek 1 = quote then do
        let (s, c) ← quotedRest double fuel (c.forward 2)
        return (quote :: s, c)
      else .ok ([], c.step)
    else if double && ch = '\\' then do
      let (e, c) ← quotedEscape c.step
      let (s, c) ← quotedRest double fuel c
      return (e ++ s, c)
    else if ch = ' ' || ch = '\t' then do
      let (gap, c) := c.run fun x => x = ' ' || x = '\t'
      if (c.peek 0).toNat = 0 then .error .yaml
      else if isBreak (c.peek 0) then
        let (s, c) ← quotedRest double fuel c
        return (s, c)
      else
        let (s, c) ← quotedRest double fuel c
        return (gap ++ s, c)
    else if isBreak ch then do
      let (b, c) := c.lineBreak
      let (bs, c) ← quotedBreaks (c.left + 1) c
      let (s, c) ← quotedRest double fuel c
      return (foldBreaks b bs ++ s, c)
    else if ch.toNat = 0 then .error .yaml
    else do
      let (s, c) ← quotedRest double fuel c.step
      return (ch :: s, c)

/-- a scalar in quotes, at its first quote -/
def quotedScalar (double : Bool) (c : Cursor) : Except Fault (List Char × Cursor) :=
  quotedRest double (c.left + 1) c.step

/-! ### Plain scalars -/

/-- whether a plain scalar can begin here -/
def startsPlain (flow : Bool) (c : Cursor) : Bool :=
  let ch := c.peek 0
  !(isGap ch || "-?:,[]\x7b\x7d#&*!|>\x27\x22%@\x60".toList.contains ch)
    || (!isGap (c.peek 1) && (ch = '-' || (!flow && (ch = '?' || ch = ':'))))

/-- whether a plain scalar stops before `ch`, which `next` follows -/
def stopsPlain (flow : Bool) (ch next : Char) : Bool :=
  isGap ch || (ch = ':' && (isGap next || (flow && ",[]\x7b\x7d".toList.contains next)))
    || (flow && ",?[]\x7b\x7d".toList.contains ch)

/-- the characters of a plain scalar up to a gap or a mark -/
def plainRun (flow : Bool) : List Char → List Char
  | [] => []
  | ch :: s =>
    if stopsPlain flow ch (s.headD (Char.ofNat 0)) then [] else ch :: plainRun flow s

/-- The line breaks between two parts of a plain scalar, none where a mark between documents
follows. -/
def plainBreaks : (fuel : Nat) → Cursor → Option (List Char) × Cursor
  | 0, c => (some [], c)
  | fuel + 1, c =>
    let c := c.skip (· = ' ')
    if isBreak (c.peek 0) then
      let (b, c) := c.lineBreak
      if c.atAnyMark then (none, c)
      else
        let (bs, c) := plainBreaks fuel c
        (bs.map (b ++ ·), c)
    else (some [], c)

/-- The gap after a part of a plain scalar: what it reads as if more follows, and whether it holds a
line break. -/
def plainGap (c : Cursor) : Option (List Char) × Bool × Cursor :=
  let (gap, c) := c.run (· = ' ')
  if isBreak (c.peek 0) then
    let (b, c) := c.lineBreak
    if c.atAnyMark then (none, true, c)
    else
      let (bs, c) := plainBreaks (c.left + 1) c
      (bs.map (foldBreaks b), true, c)
  else (some gap, false, c)

/-- The parts of a plain scalar from here on, `gap` being what stands before the next. The flag
tells whether a line break was passed at the end. -/
def plainParts (flow : Bool) (indent : Int) :
    (fuel : Nat) → (gap : List Char) → (broken : Bool) → Cursor → List Char × Bool × Cursor
  | 0, _, broken, c => ([], broken, c)
  | fuel + 1, gap, broken, c =>
    if c.peek 0 = '#' then ([], broken, c)
    else
      let part := plainRun flow c.rest
      if part.isEmpty then ([], broken, c)
      else
        let (next, broke, c) := plainGap (c.forward part.length)
        match next with
        | none | some [] => (gap ++ part, broke, c)
        | some next =>
          if c.peek 0 = '#' || (!flow && (c.column : Int) < indent) then (gap ++ part, broke, c)
          else
            let (more, broken, c) := plainParts flow indent fuel next broke c
            (gap ++ part ++ more, broken, c)

/-- a plain scalar within an indentation, and whether it ended behind a line break -/
def plainScalar (flow : Bool) (indent : Int) (c : Cursor) : List Char × Bool × Cursor :=
  plainParts flow (indent + 1) (c.left + 1) [] false c

/-! ### Scalars in blocks -/

/-- what a block scalar does with the line breaks at its end -/
inductive Chomping where
  | strip
  | clip
  | keep
deriving DecidableEq, Repr

/-- the sign of a chomping -/
def chomping? (c : Char) : Option Chomping :=
  if c = '+' then some .keep else if c = '-' then some .strip else none

/-- the digit of an indentation -/
def indentDigit? (c : Char) : Option Nat := if isDigit c then some (c.toNat - 0x30) else none

/-- the header of a block scalar: its chomping and its indentation, in either order -/
def blockHeader (c : Cursor) : Except Fault ((Chomping × Option Nat) × Cursor) := do
  let a := c.peek 0
  let (chomp, width, c) :=
    match chomping? a, indentDigit? a with
    | some k, _ =>
      match indentDigit? (c.peek 1) with
      | some w => (k, some w, c.forward 2)
      | none => (k, none, c.step)
    | none, some w =>
      match chomping? (c.peek 1) with
      | some k => (k, some w, c.forward 2)
      | none => (.clip, some w, c.step)
    | none, none => (.clip, none, c)
  if width = some 0 || !isSpaceOrEnd (c.peek 0) then .error .yaml
  else return ((chomp, width), c)

/-- the end of a line that holds nothing more but a comment -/
def restOfLine (c : Cursor) : Except Fault Cursor :=
  let c := c.skip (· = ' ')
  let c := if c.peek 0 = '#' then c.skip (fun ch => !isBreakOrEnd ch) else c
  if isBreakOrEnd (c.peek 0) then .ok c.lineBreak.2 else .error .yaml

/-- The blank lines before a block's text, and the deepest column that blanks reach. -/
def blockIndentation : (fuel : Nat) → (deepest : Nat) → Cursor → List Char × Nat × Cursor
  | 0, deepest, c => ([], deepest, c)
  | fuel + 1, deepest, c =>
    if c.peek 0 = ' ' then
      let c := c.step
      blockIndentation fuel (max deepest c.column) c
    else if isBreak (c.peek 0) then
      let (b, c) := c.lineBreak
      let (bs, deepest, c) := blockIndentation fuel deepest c
      (b ++ bs, deepest, c)
    else ([], deepest, c)

/-- spaces up to a column -/
def skipToColumn (indent : Nat) (c : Cursor) : Cursor :=
  c.forward ((c.rest.take (indent - c.column)).takeWhile (· = ' ')).length

/-- the blank lines between two lines of a block -/
def blockBreaks (indent : Nat) : (fuel : Nat) → Cursor → List Char × Cursor
  | 0, c => ([], skipToColumn indent c)
  | fuel + 1, c =>
    let c := skipToColumn indent c
    if isBreak (c.peek 0) then
      let (b, c) := c.lineBreak
      let (bs, c) := blockBreaks indent fuel c
      (b ++ bs, c)
    else ([], c)

/-- The lines of a block from here on. `breaks` stands before the next line. Gives the text without
its last line break, that break and the blank lines after it. -/
def blockLines (folded : Bool) (indent : Nat) :
    (fuel : Nat) → (breaks last : List Char) → Cursor → List Char × List Char × List Char × Cursor
  | 0, breaks, last, c => ([], last, breaks, c)
  | fuel + 1, breaks, last, c =>
    if c.column = indent && (c.peek 0).toNat ≠ 0 then
      let leading := c.peek 0 ≠ ' ' && c.peek 0 ≠ '\t'
      let (line, c) := c.run fun ch => !isBreakOrEnd ch
      let (b, c) := c.lineBreak
      let (bs, c) := blockBreaks indent (c.left + 1) c
      if c.column = indent && (c.peek 0).toNat ≠ 0 then
        let join :=
          if folded && b = ['\n'] && leading && c.peek 0 ≠ ' ' && c.peek 0 ≠ '\t' then
            if bs.isEmpty then [' '] else []
          else b
        let (more, last, after, c) := blockLines folded indent fuel bs b c
        (breaks ++ line ++ join ++ more, last, after, c)
      else (breaks ++ line, b, bs, c)
    else ([], last, breaks, c)

/-- a block scalar, at the mark that begins it, below an indentation -/
def blockScalar (folded : Bool) (indent : Int) (c : Cursor) : Except Fault (List Char × Cursor) := do
  let ((chomp, width), c) ← blockHeader c.step
  let c ← restOfLine c
  let least := (max (indent + 1) 1).toNat
  let (breaks, indent, c) :=
    match width with
    | none =>
      let (bs, deepest, c) := blockIndentation (c.left + 1) 0 c
      (bs, max least deepest, c)
    | some w =>
      let indent := least + w - 1
      let (bs, c) := blockBreaks indent (c.left + 1) c
      (bs, indent, c)
  let (text, last, after, c) := blockLines folded indent (c.left + 1) breaks [] c
  let tail :=
    match chomp with
    | .strip => []
    | .clip => last
    | .keep => last ++ after
  return (text ++ tail, c)

/-! ### Names, tags and directives -/

/-- the name of an anchor or alias, at its mark -/
def anchorName (c : Cursor) : Except Fault (List Char × Cursor) :=
  let (name, c) := c.step.run isWordChar
  let next := c.peek 0
  if name.isEmpty || !(isGap next || "?:,]\x7d%@\x60".toList.contains next) then .error .yaml
  else .ok (name, c)

/-- the bytes of escapes in a tag; `fuel` bounds their number -/
def uriEscapes : (fuel : Nat) → Cursor → Except Fault (List UInt8 × Cursor)
  | 0, c => .ok ([], c)
  | fuel + 1, c =>
    if c.peek 0 = '%' then
      match hexValue? 2 c.step.rest with
      | none => .error .yaml
      | some n => do
        let (bs, c) ← uriEscapes fuel (c.forward 3)
        return (n.toUInt8 :: bs, c)
    else .ok ([], c)

/-- the characters of a tag; `fuel` bounds their number -/
def uriChars : (fuel : Nat) → Cursor → Except Fault (List Char × Cursor)
  | 0, c => .ok ([], c)
  | fuel + 1, c =>
    let ch := c.peek 0
    if ch = '%' then do
      let (bs, c) ← uriEscapes (c.left + 1) c
      match Utf8.decode bs with
      | .error _ => .error .yaml
      | .ok s =>
        let (more, c) ← uriChars fuel c
        return (s ++ more, c)
    else if isWordChar ch || ";/?:@&=+$,.!~*\x27()[]".toList.contains ch then do
      let (more, c) ← uriChars fuel c.step
      return (ch :: more, c)
    else .ok ([], c)

/-- the characters of a tag, at least one -/
def uri (c : Cursor) : Except Fault (List Char × Cursor) := do
  let (s, c) ← uriChars (c.left + 1) c
  if s.isEmpty then .error .yaml else return (s, c)

/-- a tag handle: one exclamation mark, or a word between two -/
def tagHandle (c : Cursor) : Except Fault (List Char × Cursor) :=
  if c.peek 0 ≠ '!' then .error .yaml
  else if c.peek 1 = ' ' then .ok (['!'], c.step)
  else
    let (word, d) := c.step.run isWordChar
    if d.peek 0 = '!' then .ok ('!' :: word ++ ['!'], d.step) else .error .yaml

/-- whether an exclamation mark comes before the next space or break -/
def hasHandle (s : List Char) : Bool := (s.takeWhile fun ch => !isSpaceOrEnd ch).contains '!'

/-- a tag, at its exclamation mark -/
def tagParts (c : Cursor) : Except Fault ((Option String × String) × Cursor) := do
  let next := c.peek 1
  let ((handle, suffix), c) ←
    if next = '<' then do
      let (s, c) ← uri (c.forward 2)
      if c.peek 0 = '>' then pure ((none, s), c.step) else .error .yaml
    else if isGap next then pure ((none, ['!']), c.step)
    else if hasHandle c.step.rest then do
      let (h, c) ← tagHandle c
      let (s, c) ← uri c
      pure ((some h, s), c)
    else do
      let (s, c) ← uri c.step
      pure ((some ['!'], s), c)
  if isSpaceOrEnd (c.peek 0) then
    return ((handle.map String.ofList, String.ofList suffix), c)
  else .error .yaml

/-- a run of digits, at least one -/
def versionNumber (c : Cursor) : Except Fault (Int × Cursor) := do
  let (ds, c) := c.run isDigit
  if ds.isEmpty then throw .yaml
  return (← orFault .number (readInteger 10 ds), c)

/-- the value of a version directive: its first number -/
def versionValue (c : Cursor) : Except Fault (Int × Cursor) := do
  let (major, c) ← versionNumber (c.skip (· = ' '))
  if c.peek 0 ≠ '.' then .error .yaml
  else
    let (_, c) ← versionNumber c.step
    if isSpaceOrEnd (c.peek 0) then return (major, c) else .error .yaml

/-- the value of a tag directive: a handle and what it stands for -/
def handleValue (c : Cursor) : Except Fault ((String × String) × Cursor) := do
  let (h, c) ← tagHandle (c.skip (· = ' '))
  if c.peek 0 ≠ ' ' then .error .yaml
  else
    let (u, c) ← uri (c.skip (· = ' '))
    if isSpaceOrEnd (c.peek 0) then return ((String.ofList h, String.ofList u), c) else .error .yaml

end MeshOperator.Yaml
