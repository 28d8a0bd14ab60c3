import MeshOperator.Yaml.Pen
import MeshOperator.Yaml.Presentation

/-!
# Writing values as YAML

`Values.yaml` is the text of values: one line for each scalar, collections indented by two spaces, a
list in a mapping no deeper than its key. A key that is long, empty or of several lines stands after
a question mark.
-/

namespace MeshOperator.Yaml

/-- the text of an anchor's number: at least three digits -/
def anchorText (n : Nat) : String := "id" ++ String.ofList (paddedText 3 n)

/-- the mark of an anchor, if there is one -/
def Pen.anchor (p : Pen) : Option Nat → Pen
  | none => p
  | some n => p.mark ("&" ++ anchorText n) true false

/-- the length of an anchor's text -/
def anchorLength (anchor : Option Nat) : Nat :=
  (anchor.map fun n => (anchorText n).length).getD 0

/-- the length from which a key does not stand before a colon -/
def longKey : Nat := 128

/-- Whether something can stand before a colon: an alias, an empty collection, or a scalar of one
line, if it is short together with its anchor and its tag. -/
def Outline.fitsKey : Outline → Bool
  | .alias n => (anchorText n).length < longKey
  | .scalar anchor tag text =>
    anchorLength anchor + tag.shortName.length + text.length < longKey && isKeyText text.toList
  | .sequence anchor items => anchorLength anchor + 5 < longKey && items.isEmpty
  | .mapping anchor tag pairs => anchorLength anchor + tag.shortName.length < longKey && pairs.isEmpty

/-- a scalar with its tag -/
def Pen.scalar (p : Pen) (indentation : Nat) (asKey : Bool) (tag : Tag) (text : String) : Pen :=
  let style := styleOf tag asKey text
  let p := if style.showsTag tag then p.mark tag.shortName true false else p
  match style with
  | .plain => p.plain indentation (!asKey) text.toList
  | .single => p.single indentation (!asKey) text.toList
  | .double => p.double indentation (!asKey) text.toList
  | .lines => p.block indentation text.toList

mutual

/-- Writes what stands in a collection that is indented by `outer`. `entry` says that it stands in a
mapping, `asKey` that it stands before a colon. -/
def write (outer : Nat) (entry asKey : Bool) : Outline → Pen → Pen
  | .alias n, p => p.mark ("*" ++ anchorText n) true false
  | .scalar anchor tag text, p => (p.anchor anchor).scalar (outer + 2) asKey tag text
  | .sequence anchor items, p =>
    let p := p.anchor anchor
    if items.isEmpty then (p.opening "[").mark "]" false false
    else writeItems (if entry && !p.fresh then outer else outer + 2) items p
  | .mapping anchor tag pairs, p =>
    let p := p.anchor anchor
    let p := if tag = .mapping then p else p.mark tag.shortName true false
    if pairs.isEmpty then (p.opening "\x7b").mark "\x7d" false false
    else writePairs (outer + 2) pairs p

/-- the items of a list, each after a hyphen -/
def writeItems (indentation : Nat) : List Outline → Pen → Pen
  | [], p => p
  | o :: os, p =>
    writeItems indentation os
      (write indentation false false o ((p.indent indentation).mark "-" true true))

/-- the pairs of a mapping -/
def writePairs (indentation : Nat) : List (Outline × Outline) → Pen → Pen
  | [], p => p
  | (k, v) :: rest, p =>
    let p := p.indent indentation
    let p :=
      if k.fitsKey then (write indentation true true k p).mark ":" false false
      else
        ((write indentation true false k (p.mark "?" true true)).indent indentation).mark ":" true true
    writePairs indentation rest (write indentation true false v p)

end

/-- the text of a tree that is a mapping -/
def Outline.text (o : Outline) : String :=
  match o with
  | .mapping anchor tag pairs =>
    let p :=
      if pairs.isEmpty then write 0 false false (.mapping anchor tag []) .start
      else writePairs 0 pairs .start
    (p.indent 0).text
  | o => ((write 0 false false o .start).indent 0).text

mutual

/-- the most collections that something in a tree stands in -/
def Outline.depth : Outline → Nat
  | .alias _ | .scalar .. => 0
  | .sequence _ items => itemsDepth items
  | .mapping _ _ pairs => pairsDepth pairs

/-- the same for items, the one around them counted -/
def itemsDepth : List Outline → Nat
  | [] => 0
  | o :: os => max (o.depth + 1) (itemsDepth os)

/-- the same for pairs, the mapping around them counted -/
def pairsDepth : List (Outline × Outline) → Nat
  | [] => 0
  | (k, v) :: rest => max (max k.depth v.depth + 1) (pairsDepth rest)

end

/-- the most collections that something written may stand in -/
def deepestWritten : Nat := 328

mutual

/-- whether every integer in a tree has few enough digits -/
def Outline.isWritable : Outline → Bool
  | .alias _ => true
  | .scalar _ tag text => tag ≠ .int || (text.toList.filter isDigit).length ≤ maxDigits
  | .sequence _ items => areWritableItems items
  | .mapping _ _ pairs => areWritablePairs pairs

/-- the same for items -/
def areWritableItems : List Outline → Bool
  | [] => true
  | o :: os => o.isWritable && areWritableItems os

/-- the same for pairs -/
def areWritablePairs : List (Outline × Outline) → Bool
  | [] => true
  | (k, v) :: rest => k.isWritable && v.isWritable && areWritablePairs rest

end

end MeshOperator.Yaml

namespace MeshOperator

/-- Values as YAML. Values nested too deep and integers that are too long have no written form. -/
def Values.yaml (v : Values) : Except Fault String :=
  let o := v.outline
  if Yaml.deepestWritten < o.depth then .error .tooDeep
  else if o.isWritable then .ok o.text
  else .error (.number .tooLong)

end MeshOperator
