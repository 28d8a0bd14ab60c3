import MeshOperator.Data.Json
import MeshOperator.Proofs.Json.Numerals
import MeshOperator.Proofs.Json.ReadBack

/-!
# Written data

Data that JSON has a form for is written if its integers are not too long. What is written is the text of a value
of JSON, in printable ASCII characters, and the value denotes what the data is read back as.

* `Json.arrayOf`, `Json.objectOf`: arrays and objects as they are written.
* `Data.IsForm`: a value is the form of data.
* `Data.exists_form`, `Data.isWritable_of_json`: data has a form exactly if it is written.
-/

namespace MeshOperator

namespace Json

/-! ### Arrays and objects as they are written -/

/-- items with nothing before the first and a space before the others -/
def itemsOf (before : Gap) : Value → List Value → Items
  | v, [] => .last before v []
  | v, w :: vs => .more before v [] (itemsOf [.space] w vs)

/-- members with nothing before the first key, and a space before the others and before each value -/
def membersOf (before : Gap) : List Piece × Value → List (List Piece × Value) → Members
  | m, [] => .last ⟨before, m.1, []⟩ [.space] m.2 []
  | m, n :: ms => .more ⟨before, m.1, []⟩ [.space] m.2 [] (membersOf [.space] n ms)

/-- an array -/
def arrayOf : List Value → Value
  | [] => .emptyArray []
  | v :: vs => .array (itemsOf [] v vs)

/-- an object -/
def objectOf : List (List Piece × Value) → Value
  | [] => .emptyObject []
  | m :: ms => .object (membersOf [] m ms)

/-- a member as it is written -/
def memberText (m : List Piece × Value) : List Char := quoted m.1 ++ ':' :: ' ' :: m.2.text

section Collections

theorem commaSeparated_cons_cons (a b : List Char) (parts : List (List Char)) :
    commaSeparated (a :: b :: parts) = a ++ ',' :: ' ' :: commaSeparated (b :: parts) := by
  simp [commaSeparated, List.intersperse]

theorem text_itemsOf (before : Gap) (v : Value) (vs : List Value) :
    (itemsOf before v vs).text = before.text ++ commaSeparated ((v :: vs).map Value.text) := by
  induction vs generalizing before v with
  | nil => simp [itemsOf, Items.text, Gap.text, commaSeparated]
  | cons w vs ih =>
    rw [itemsOf, Items.text, ih]
    simp [Gap.text, Blank.char, commaSeparated_cons_cons]

theorem text_arrayOf (vs : List Value) :
    (arrayOf vs).text = '[' :: commaSeparated (vs.map Value.text) ++ [']'] := by
  cases vs with
  | nil => rw [arrayOf, Value.text]; rfl
  | cons v vs => rw [arrayOf, Value.text, text_itemsOf]; rfl

theorem text_membersOf (before : Gap) (m : List Piece × Value) (ms : List (List Piece × Value)) :
    (membersOf before m ms).text = before.text ++ commaSeparated ((m :: ms).map memberText) := by
  induction ms generalizing before m with
  | nil => simp [membersOf, Members.text, Key.text, Gap.text, Blank.char, memberText, commaSeparated]
  | cons n ms ih =>
    rw [membersOf, Members.text, ih]
    simp [Key.text, Gap.text, Blank.char, memberText, commaSeparated_cons_cons]

theorem text_objectOf (ms : List (List Piece × Value)) :
    (objectOf ms).text = '\x7b' :: commaSeparated (ms.map memberText) ++ ['\x7d'] := by
  cases ms with
  | nil => rw [objectOf, Value.text]; rfl
  | cons m ms => rw [objectOf, Value.text, text_membersOf]; rfl

theorem dataBy_arrayOf (f : Atom → Scalar) (vs : List Value) :
    (arrayOf vs).dataBy f = .list (vs.map (·.dataBy f)) := by
  have hitems (before : Gap) (v : Value) (vs : List Value) :
      (itemsOf before v vs).dataBy f = (v :: vs).map (·.dataBy f) := by
    induction vs generalizing before v with
    | nil => simp [itemsOf, Items.dataBy]
    | cons w vs ih => rw [itemsOf, Items.dataBy, ih, List.map_cons, List.map_cons, List.map_cons]
  cases vs with
  | nil => simp [arrayOf, Value.dataBy]
  | cons v vs => rw [arrayOf, Value.dataBy, hitems]

theorem dataBy_objectOf (f : Atom → Scalar) (ms : List (List Piece × Value)) :
    (objectOf ms).dataBy f =
      .dict (Data.putAll [] (ms.map fun m => (String.ofList (charsOf m.1), m.2.dataBy f))) := by
  have hmembers (before : Gap) (m : List Piece × Value) (ms : List (List Piece × Value)) :
      (membersOf before m ms).entriesBy f =
        (m :: ms).map fun m => (String.ofList (charsOf m.1), m.2.dataBy f) := by
    induction ms generalizing before m with
    | nil => simp [membersOf, Members.entriesBy, Key.string]
    | cons n ms ih =>
      rw [membersOf, Members.entriesBy, ih, List.map_cons, List.map_cons, List.map_cons]
      rfl
  cases ms with
  | nil => simp [objectOf, Value.dataBy]
  | cons m ms =>
    rw [objectOf, Value.dataBy, hmembers]
    rfl

theorem isPrintableAscii_commaSeparated {parts : List (List Char)}
    (h : ∀ s ∈ parts, ∀ c ∈ s, isPrintableAscii c = true) :
    ∀ c ∈ commaSeparated parts, isPrintableAscii c = true := by
  induction parts with
  | nil => exact List.forall_mem_nil _
  | cons s parts ih =>
    obtain ⟨hs, hparts⟩ := List.forall_mem_cons.1 h
    cases parts with
    | nil => simpa [commaSeparated] using hs
    | cons t parts =>
      rw [commaSeparated_cons_cons]
      simp only [List.forall_mem_append, List.forall_mem_cons]
      exact ⟨hs, by decide, by decide, ih hparts⟩

end Collections

end Json

namespace Data

open Json

/-! ### Forms -/

/-- A value of JSON is the form of data: it is what is written for it, in printable characters of ASCII, and it
denotes what the data is read back as. -/
structure IsForm (d : Data) (v : Value) : Prop where
  json : d.json = .ok v.text
  data : v.dataBy Atom.scalar = d.readBack
  printable : ∀ c ∈ v.text, isPrintableAscii c = true

section Forms

variable {ds : List Data} {es : List (Data × Data)}

theorem isForm_atom {s : Scalar} {a : Atom} (hjson : s.json = .ok a.text)
    (hdata : .scalar a.scalar = (Data.scalar s).readBack) (hprintable : ∀ c ∈ a.text, isPrintableAscii c = true) :
    IsForm (.scalar s) (.atom a) := by
  refine ⟨?_, ?_, ?_⟩
  · rw [Data.json, hjson, Value.text]
  · rw [Value.dataBy, hdata]
  · rwa [Value.text]

theorem exists_form_number {s : Scalar} (hs : ∃ n : Number, s.json = .ok n.text ∧ n.scalar = s)
    (hback : (Data.scalar s).readBack = .scalar s) : ∃ v, IsForm (.scalar s) v := by
  have hmarks : ∀ c ∈ numberMarks, isPrintableAscii c = true := Yaml.forall_mem_of_all (by decide)
  obtain ⟨n, hjson, hscalar⟩ := hs
  exact ⟨.atom (.number n), isForm_atom hjson (by rw [hback]; exact congrArg Data.scalar hscalar)
    fun c hc => hmarks c (n.mem_numberMarks c hc)⟩

/-- the form of a list -/
theorem isForm_arrayOf {vs : List Value} (h : List.Forall₂ IsForm ds vs) : IsForm (.list ds) (arrayOf vs) := by
  have hitems : jsonItems ds = .ok (vs.map Value.text) ∧ readBackItems ds = vs.map (·.dataBy Atom.scalar) ∧
      ∀ s ∈ vs.map Value.text, ∀ c ∈ s, isPrintableAscii c = true := by
    induction h with
    | nil => exact ⟨rfl, rfl, List.forall_mem_nil _⟩
    | cons hd _ ih =>
      obtain ⟨hjson, hdata, hprintable⟩ := ih
      exact ⟨by rw [jsonItems, hd.json, hjson]; rfl, by rw [readBackItems, ← hd.data, hdata, List.map_cons],
        List.forall_mem_cons.2 ⟨hd.printable, hprintable⟩⟩
  obtain ⟨hjson, hdata, hprintable⟩ := hitems
  refine ⟨?_, ?_, ?_⟩
  · rw [json, hjson, text_arrayOf]
    rfl
  · rw [dataBy_arrayOf, readBack, hdata]
  · rw [text_arrayOf]
    simp only [List.cons_append, List.forall_mem_cons, List.forall_mem_append]
    exact ⟨by decide, isPrintableAscii_commaSeparated hprintable, by decide, List.forall_mem_nil _⟩

/-- An entry and its member: the key is written as the name, and the value as the value. -/
structure IsMember (e : Data × Data) (m : List Piece × Value) : Prop where
  key : ∃ k, e.1 = .text k ∧ quoted m.1 = Text.escaped k.toList ∧ charsOf m.1 = joined k.toList
  value : IsForm e.2 m.2

/-- the form of a mapping -/
theorem isForm_objectOf {ms : List (List Piece × Value)} (h : List.Forall₂ IsMember es ms) :
    IsForm (.dict es) (objectOf ms) := by
  have hentries : jsonEntries es = .ok (ms.map memberText) ∧
      readBackEntries es = ms.map (fun m => (String.ofList (charsOf m.1), m.2.dataBy Atom.scalar)) ∧
      ∀ s ∈ ms.map memberText, ∀ c ∈ s, isPrintableAscii c = true := by
    induction h with
    | nil => exact ⟨rfl, rfl, List.forall_mem_nil _⟩
    | @cons e m es ms he _ ih =>
      obtain ⟨hjson, hdata, hprintable⟩ := ih
      obtain ⟨⟨k, hk, htext, hchars⟩, hvalue⟩ := he
      obtain ⟨key, v⟩ := e
      obtain rfl : key = .text k := hk
      have hkey : jsonKey (.text k) = .ok (quoted m.1) := by rw [htext]; rfl
      refine ⟨?_, ?_, List.forall_mem_cons.2 ⟨?_, hprintable⟩⟩
      · rw [jsonEntries, hkey, hvalue.json, hjson]
        rfl
      · rw [readBackEntries, ← hvalue.data, hdata, List.map_cons, hchars]
        rfl
      · simp only [memberText, htext, List.forall_mem_append, List.forall_mem_cons]
        exact ⟨isPrintableAscii_escaped _, by decide, by decide, hvalue.printable⟩
  obtain ⟨hjson, hdata, hprintable⟩ := hentries
  refine ⟨?_, ?_, ?_⟩
  · rw [json, hjson, text_objectOf]
    rfl
  · rw [dataBy_objectOf, readBack, hdata]
  · rw [text_objectOf]
    simp only [List.cons_append, List.forall_mem_cons, List.forall_mem_append]
    exact ⟨by decide, isPrintableAscii_commaSeparated hprintable, by decide, List.forall_mem_nil _⟩

theorem areWritable_iff (ds : List Data) : areWritable ds = true ↔ ∀ d ∈ ds, d.isWritable = true := by
  induction ds with
  | nil => simp [areWritable]
  | cons d ds ih => simp [areWritable, ih]

theorem areWritableEntries_iff (es : List (Data × Data)) :
    areWritableEntries es = true ↔ ∀ e ∈ es, e.1.isWritable = true ∧ e.2.isWritable = true := by
  induction es with
  | nil => simp [areWritableEntries]
  | cons e es ih => simp [areWritableEntries, ih]

/-- **Writing.**  Data that JSON has a form for is written if its integers are not too long. -/
theorem exists_form {d : Data} (h : d.IsJson) (hw : d.isWritable = true) : ∃ v, IsForm d v := by
  induction h with
  | null => exact ⟨.atom .null, isForm_atom rfl rfl (Yaml.forall_mem_of_all (by decide))⟩
  | bool b =>
    exact ⟨.atom (.bool b), by cases b <;> exact isForm_atom rfl rfl (Yaml.forall_mem_of_all (by decide))⟩
  | int n =>
    obtain ⟨k, htext, hscalar⟩ := exists_integer n
    exact exists_form_number ⟨k, by rw [htext]; exact if_pos hw, hscalar⟩ rfl
  | double negative fits =>
    obtain ⟨k, htext, hscalar⟩ := exists_double fits negative
    exact exists_form_number ⟨k, by rw [htext]; rfl, hscalar⟩ rfl
  | text s =>
    obtain ⟨ps, htext, hchars⟩ := exists_pieces s.toList
    refine ⟨.atom (.string ps), isForm_atom ?_ ?_ ?_⟩
    · rw [Atom.text, htext]
      rfl
    · rw [Atom.scalar, hchars]
      rfl
    · rw [Atom.text, htext]
      exact isPrintableAscii_escaped _
  | @list ds items ih =>
    rw [isWritable, areWritable_iff] at hw
    obtain ⟨vs, hvs⟩ := exists_forall₂ fun d hd => ih d hd (hw d hd)
    exact ⟨arrayOf vs, isForm_arrayOf hvs⟩
  | @dict es fields values ih =>
    rw [isWritable, areWritableEntries_iff] at hw
    have hmember (e : Data × Data) (he : e ∈ es) : ∃ m, IsMember e m := by
      obtain ⟨k, hk⟩ := fields.named e he
      obtain ⟨ps, htext, hchars⟩ := exists_pieces k.toList
      obtain ⟨v, hv⟩ := ih e he (hw e he).2
      exact ⟨(ps, v), ⟨k, hk, htext, hchars⟩, hv⟩
    obtain ⟨ms, hms⟩ := exists_forall₂ hmember
    exact ⟨objectOf ms, isForm_objectOf hms⟩

theorem exists_json_of_jsonItems {ss : List (List Char)} (h : jsonItems ds = .ok ss) :
    ∀ d ∈ ds, ∃ s, d.json = .ok s := by
  induction ds generalizing ss with
  | nil => exact List.forall_mem_nil _
  | cons d ds ih =>
    obtain ⟨s, hs, hrest⟩ := bind_eq_ok.1 h
    obtain ⟨ss, hss, -⟩ := bind_eq_ok.1 hrest
    exact List.forall_mem_cons.2 ⟨⟨s, hs⟩, ih hss⟩

theorem exists_json_of_jsonEntries {ss : List (List Char)} (h : jsonEntries es = .ok ss) :
    ∀ e ∈ es, ∃ s, e.2.json = .ok s := by
  induction es generalizing ss with
  | nil => exact List.forall_mem_nil _
  | cons e es ih =>
    obtain ⟨key, -, hvalue⟩ := bind_eq_ok.1 h
    obtain ⟨s, hs, hrest⟩ := bind_eq_ok.1 hvalue
    obtain ⟨ss, hss, -⟩ := bind_eq_ok.1 hrest
    exact List.forall_mem_cons.2 ⟨⟨s, hs⟩, ih hss⟩

/-- data with an integer that is too long is not written -/
theorem isWritable_of_json {d : Data} (h : d.IsJson) {s : List Char} (hs : d.json = .ok s) :
    d.isWritable = true := by
  induction h generalizing s with
  | null | bool | double | text => rfl
  | int n =>
    rw [json, Scalar.json] at hs
    split_ifs at hs with hshort
    exact hshort
  | @list ds items ih =>
    obtain ⟨ss, hss, -⟩ := bind_eq_ok.1 hs
    rw [isWritable, areWritable_iff]
    intro d hd
    obtain ⟨t, ht⟩ := exists_json_of_jsonItems hss d hd
    exact ih d hd ht
  | @dict es fields values ih =>
    obtain ⟨ss, hss, -⟩ := bind_eq_ok.1 hs
    rw [isWritable, areWritableEntries_iff]
    intro e he
    obtain ⟨k, hk⟩ := fields.named e he
    obtain ⟨t, ht⟩ := exists_json_of_jsonEntries hss e he
    exact ⟨by rw [hk]; rfl, ih e he ht⟩

end Forms

end Data

end MeshOperator
