import MeshOperator.Proofs.Json.Layout

/-!
# Values as texts of JSON

An object may be given as a mapping or as a text of JSON. The text is read as YAML, which takes most numbers for
what they denote and some for texts. Where all are kept, the values read the same in both forms, and so do the
effective values.

* `Value.read_eq`: what the item of a value reads as.
* `Document.exists_ofText`: the values of a text.
* `Values.ofRaw_text_eq`: values as a text and as a mapping.
-/

namespace MeshOperator

namespace Json

open Yaml Yaml.Builder

/-! ### Definite data -/

theorem Atom.isDefinite_scalar (a : Atom) : a.scalar.isDefinite = true := by
  cases a with
  | number n =>
    rw [Atom.scalar, Number.scalar]
    split
    · rfl
    · exact decide_eq_true fun h => Double.ofDecimal_ne_nan _ _ _ (Scalar.double.inj h)
  | _ => rfl

mutual

/-- a value denotes definite data -/
theorem Value.isDefinite_data (v : Value) : (v.dataBy Atom.scalar).isDefinite = true := by
  match v with
  | .atom a => exact a.isDefinite_scalar
  | .emptyArray _ => rfl
  | .array items => exact (Data.areDefinite_iff _).2 items.isDefinite_data
  | .emptyObject _ => rfl
  | .object members =>
    have hfold (ps : List (String × Data)) (hps : ∀ p ∈ ps, p.2.isDefinite = true) (es : List (Data × Data))
        (hes : Data.areDefiniteEntries es = true) :
        Data.areDefiniteEntries (ps.foldl (fun es e => Data.withEntry e.1 e.2 es) es) = true := by
      induction ps generalizing es with
      | nil => exact hes
      | cons p ps ih =>
        obtain ⟨hp, hps⟩ := List.forall_mem_cons.1 hps
        exact ih hps _ (Data.areDefiniteEntries_withEntry hp hes)
    exact hfold _ members.isDefinite_entries [] rfl

theorem Items.isDefinite_data (is : Items) : ∀ d ∈ is.dataBy Atom.scalar, d.isDefinite = true := by
  match is with
  | .last _ v _ => exact List.forall_mem_singleton.2 v.isDefinite_data
  | .more _ v _ rest => exact List.forall_mem_cons.2 ⟨v.isDefinite_data, rest.isDefinite_data⟩

theorem Members.isDefinite_entries (ms : Members) : ∀ e ∈ ms.entriesBy Atom.scalar, e.2.isDefinite = true := by
  match ms with
  | .last _ _ v _ => exact List.forall_mem_singleton.2 v.isDefinite_data
  | .more _ _ v _ rest => exact List.forall_mem_cons.2 ⟨v.isDefinite_data, rest.isDefinite_entries⟩

end

/-! ### Values whose numbers are kept -/

mutual

/-- A value whose numbers are kept is taken for what it denotes. -/
theorem Value.reading_eq (v : Value) (h : v.isKept = true) : v.dataBy Atom.reading = v.dataBy Atom.scalar := by
  match v with
  | .atom a => exact congrArg Data.scalar (Atom.reading_eq h)
  | .emptyArray _ => rfl
  | .array items => rw [Value.dataBy, Value.dataBy, items.reading_eq h]
  | .emptyObject _ => rfl
  | .object members => rw [Value.dataBy, Value.dataBy, members.reading_eq h]

theorem Items.reading_eq (is : Items) (h : is.isKept = true) :
    is.dataBy Atom.reading = is.dataBy Atom.scalar := by
  match is with
  | .last _ v _ => rw [Items.dataBy, Items.dataBy, v.reading_eq h]
  | .more _ v _ rest =>
    rw [Items.isKept, Bool.and_eq_true] at h
    rw [Items.dataBy, Items.dataBy, v.reading_eq h.1, rest.reading_eq h.2]

theorem Members.reading_eq (ms : Members) (h : ms.isKept = true) :
    ms.entriesBy Atom.reading = ms.entriesBy Atom.scalar := by
  match ms with
  | .last _ _ v _ => rw [Members.entriesBy, Members.entriesBy, v.reading_eq h]
  | .more _ _ v _ rest =>
    rw [Members.isKept, Bool.and_eq_true] at h
    rw [Members.entriesBy, Members.entriesBy, v.reading_eq h.1, rest.reading_eq h.2]

end

/-! ### Reading the items -/

section Reading

variable {d : Yaml.Document} {b : Builder}

mutual

/-- The item of the first node of a value reads as what the value is taken for. -/
theorem Value.read_eq (v : Value) {lo : Nat} {i : Item} (h : d.Becomes b) (ht : d.IsTree)
    (hv : v.isReadable = true) (hs : Numbered (StandsIn d.nodes) lo (v.nodes lo)) (hi : b.Has lo i) :
    b.store.read i = v.dataBy Atom.reading := by
  match v with
  | .atom a =>
    obtain ⟨s, hnode, hmeans⟩ := Atom.means hv
    rw [Value.nodes, numbered_cons, hnode] at hs
    obtain ⟨x, rfl, hx⟩ := h.stands.scalar hi hs.1
    rw [String.toList_ofList] at hx
    rw [hx.unique hmeans]
    rfl
  | .emptyArray _ =>
    rw [Value.nodes, numbered_cons] at hs
    obtain ⟨m, rfl, -, -⟩ := h.exists_node hi hs.1 fun _ => Body.noConfusion
    rw [h.read_eq ht hi hs.1]
    rfl
  | .array items =>
    rw [Value.nodes, numbered_cons] at hs
    obtain ⟨m, rfl, -, hhas⟩ := h.exists_node hi hs.1 fun _ => Body.noConfusion
    rw [h.read_eq ht hi hs.1]
    exact congrArg Data.list (items.map_read_eq h ht hv hs.2 hhas)
  | .emptyObject _ =>
    rw [Value.nodes, numbered_cons] at hs
    obtain ⟨m, rfl, -, -⟩ := h.exists_node hi hs.1 fun _ => Body.noConfusion
    rw [h.read_eq ht hi hs.1]
    rfl
  | .object members =>
    rw [Value.nodes, numbered_cons] at hs
    obtain ⟨m, rfl, -, hhas⟩ := h.exists_node hi hs.1 fun _ => Body.noConfusion
    have hmembers := members.map_read_eq h ht hv hs.2 fun p hp =>
      hhas p.2 (List.mem_flatMap.2 ⟨p, hp, List.mem_cons_of_mem _ (.head _)⟩)
    rw [h.read_eq ht hi hs.1]
    have hread := b.store.map_foldl_putEntry (fun p => keyText b.nodes p.1) (fun p => b.itemAt p.2)
      (members.numbers (lo + 1)) []
    rw [hmembers] at hread
    exact congrArg Data.dict hread

theorem Items.map_read_eq (is : Items) {lo : Nat} (h : d.Becomes b) (ht : d.IsTree)
    (hv : is.isReadable = true) (hs : Numbered (StandsIn d.nodes) lo (is.nodes lo))
    (hhas : ∀ n ∈ is.numbers lo, ∃ j, b.Has n j) :
    ((is.numbers lo).map b.itemAt).map b.store.read = is.dataBy Atom.reading := by
  match is with
  | .last _ v _ =>
    simp only [Items.isReadable, Bool.and_eq_true] at hv
    rw [Items.nodes] at hs
    obtain ⟨j, hj⟩ := hhas lo (.head _)
    rw [Items.numbers, List.map_singleton, List.map_singleton, hj.itemAt_eq, v.read_eq h ht hv.1.2 hs hj]
    rfl
  | .more _ v _ rest =>
    simp only [Items.isReadable, Bool.and_eq_true] at hv
    rw [Items.nodes, numbered_append, v.length_nodes] at hs
    obtain ⟨⟨j, hj⟩, hhas⟩ := List.forall_mem_cons.1 hhas
    rw [Items.numbers, List.map_cons, List.map_cons, hj.itemAt_eq, v.read_eq h ht hv.1.1.2 hs.1 hj,
      rest.map_read_eq h ht hv.2 hs.2 hhas]
    rfl

theorem Members.map_read_eq (ms : Members) {lo : Nat} (h : d.Becomes b) (ht : d.IsTree)
    (hv : ms.isReadable = true) (hs : Numbered (StandsIn d.nodes) lo (ms.nodes lo))
    (hhas : ∀ p ∈ ms.numbers lo, ∃ j, b.Has p.2 j) :
    (ms.numbers lo).map (fun p => (keyText b.nodes p.1, b.store.read (b.itemAt p.2))) =
      ms.entriesBy Atom.reading := by
  have hkey {n : Nat} {k : Key} (hn : StandsIn d.nodes n k.node) : keyText b.nodes n = k.string := by
    rw [h.stands.nodes_eq]
    exact keyText_eq hn
  match ms with
  | .last k _ v _ =>
    simp only [Members.isReadable, Bool.and_eq_true] at hv
    rw [Members.nodes, numbered_cons] at hs
    obtain ⟨j, hj⟩ := hhas (lo, lo + 1) (.head _)
    rw [Members.numbers, List.map_singleton, hkey hs.1, hj.itemAt_eq, v.read_eq h ht hv.1.2 hs.2 hj]
    rfl
  | .more k _ v _ rest =>
    simp only [Members.isReadable, Bool.and_eq_true] at hv
    rw [Members.nodes, numbered_append, numbered_cons, List.length_cons, v.length_nodes] at hs
    obtain ⟨⟨j, hj⟩, hhas⟩ := List.forall_mem_cons.1 hhas
    rw [Members.numbers, List.map_cons, hkey hs.1.1, hj.itemAt_eq, v.read_eq h ht hv.1.1.2 hs.1.2 hj,
      rest.map_read_eq h ht hv.2 hs.2 hhas]
    rfl

end

end Reading

/-! ### The values of a text -/

namespace Document

variable {d : Document}

theorem root_cases (d : Document) :
    (∃ gap, d.root = .emptyObject gap) ∨ ∃ members, d.root = .object members := by
  obtain ⟨before, root, after, hroot⟩ := d
  cases root with
  | emptyObject gap => exact .inl ⟨gap, rfl⟩
  | object members => exact .inr ⟨members, rfl⟩
  | _ => cases hroot

/-- an object is a mapping, whatever its atoms are taken for -/
theorem exists_dataBy_eq (d : Document) (f : Atom → Scalar) : ∃ es, d.root.dataBy f = .dict es := by
  rcases d.root_cases with ⟨gap, h⟩ | ⟨members, h⟩ <;> exact ⟨_, by rw [h]; rfl⟩

/-- the first node of a text is a mapping -/
theorem exists_root_eq (d : Document) : ∃ ps, d.composed.nodes[0]? = some ⟨.mapping, .mapping ps⟩ := by
  unfold composed
  rcases d.root_cases with ⟨gap, h⟩ | ⟨members, h⟩ <;> exact ⟨_, by rw [h]; rfl⟩

theorem text_ne_empty (d : Document) : String.ofList d.text ≠ "" := by
  have hroot : d.root.text ≠ [] := by
    rcases d.root_cases with ⟨gap, h⟩ | ⟨members, h⟩ <;> rw [h] <;> exact List.cons_ne_nil _ _
  intro h
  have hnil : d.text = [] := String.ofList_injective h
  rw [text, List.append_eq_nil_iff, List.append_eq_nil_iff] at hnil
  exact hroot hnil.1.2

/-- **Texts.**  The text of an object is accepted, and its values are a tree that reads as what the text is
taken for. -/
theorem exists_ofText (h : d.isReadable = true) :
    ∃ v, Values.ofText (String.ofList d.text) = .ok v ∧ v.IsTree ∧ v.toData = d.reading := by
  have hreadable := h
  simp only [isReadable, Bool.and_eq_true, decide_eq_true_eq] at hreadable
  obtain ⟨⟨⟨-, hv⟩, -⟩, hheight⟩ := hreadable
  obtain ⟨ps, hroot⟩ := d.exists_root_eq
  have hlt : d.composed.root < d.composed.nodes.size := (Array.getElem?_eq_some_iff.1 hroot).1
  obtain ⟨b, i, hvalue, hstands, hwaiting, hi⟩ := Yaml.Document.exists_value (arePlain hv) hlt
  have hbecomes : d.composed.Becomes b := ⟨hstands, hwaiting, (sound_of_value hvalue).1⟩
  obtain ⟨m, rfl, hcell, -⟩ := hbecomes.exists_node hi hroot fun _ => Body.noConfusion
  obtain ⟨es, hes⟩ : ∃ es, b.store.entries? m = some es := ⟨_, Store.entries?_eq_some.2 hcell⟩
  obtain ⟨rest, hdocument, hmarked⟩ := nodes_ofTokens hheight
  have hsole : soleValue? (String.ofList d.text) = .ok (some (b.store, .node m)) := by
    unfold soleValue?
    rw [String.toList_ofList, tokens_ofText h, hdocument]
    simp only [ok_bind, hmarked]
    change (d.composed.value >>= _) = _
    rw [hvalue]
    rfl
  refine ⟨.reroot b.store es, ?_, hbecomes.isTree_reroot (isTree hv) hi hes, ?_⟩
  · have hentries : b.store.itemEntries? (.node m) = some es := hes
    unfold Values.ofText
    rw [if_neg d.text_ne_empty, hsole]
    simp only [hentries]
  · rw [hbecomes.toData_reroot hi hes (isTree hv)]
    exact d.root.read_eq hbecomes (isTree hv) hv (numbered_self d.composed.nodes) hi

end Document

end Json

/-! ### Both forms -/

namespace Values

open Json

/-- **Texts of JSON.**  An object is accepted as a text and as a mapping. The mapping reads as the object, and the
text as what it is taken for, which is the object if its numbers are kept: then the effective values are the
same in both forms. The characters U+10D800 to U+10DFFF of its strings are halves of surrogate pairs here
(`holdsHalf`). -/
theorem ofRaw_text_eq {t : Document} (h : t.isReadable = true) :
    ∃ v w, ofRaw (.text (String.ofList t.text)) = .ok v ∧ ofRaw t.data = .ok w ∧
      v.toData = t.reading ∧ w.toData = t.data ∧
      (t.isKept = true → v.toData = w.toData ∧
        ∀ ns, (v.override (.text ns)).map toData = (w.override (.text ns)).map toData) := by
  obtain ⟨v, hv, htree, hreading⟩ := Document.exists_ofText h
  obtain ⟨es, hes⟩ := t.exists_dataBy_eq Atom.scalar
  have hdefinite : (Data.dict es).isDefinite = true := by
    rw [← hes]
    exact t.root.isDefinite_data
  have hw : (ofEntries es).toData = .dict es := toData_ofEntries hdefinite
  have hdata : t.data = .dict es := hes
  refine ⟨v, ofEntries es, hv, by rw [hdata]; rfl, hreading, by rw [hw, hdata], fun hkept => ?_⟩
  have hsame : v.toData = .dict es := by
    rw [hreading, ← hdata]
    exact t.root.reading_eq hkept
  refine ⟨by rw [hsame, hw], fun ns => ?_⟩
  rw [toData_override (isSound_of_ofText hv) htree hsame ns,
    toData_override (isSound_ofEntries es) (isTree_ofEntries es) hw ns]

/-- a text with numbers, an escape and white space -/
def escaped : Document where
  before := [.lineFeed]
  root := .object (.more ⟨[], [.plain 'a' rfl], []⟩ [.space]
    (.array (.more [] (.atom (.number ⟨false, ⟨[1], by decide⟩, .inr (by decide), none, none⟩)) []
      (.last [.space] (.atom (.number ⟨true, ⟨[2], by decide⟩, .inr (by decide), some ⟨[5], by decide⟩,
        some ⟨false, some .plus, ⟨[3], by decide⟩⟩⟩)) []))) []
    (.last ⟨[.space], [.plain 'b' rfl], [.space]⟩ []
      (.object (.last ⟨[], [.unit ⟨'0', rfl⟩ ⟨'0', rfl⟩ ⟨'6', rfl⟩ ⟨'3', rfl⟩], []⟩ []
        (.atom .null) [.carriageReturn])) [.space]))
  after := []
  isObject := rfl

theorem ofRaw_text_escaped :
    String.ofList escaped.text = "\n\x7b\"a\": [1, -2.5e+3], \"b\" :\x7b\"\\u0063\":null\r\x7d \x7d" ∧
    ∃ v w, ofRaw (.text (String.ofList escaped.text)) = .ok v ∧ ofRaw escaped.data = .ok w ∧
      v.toData = w.toData ∧
      ∀ ns, (v.override (.text ns)).map toData = (w.override (.text ns)).map toData := by
  have hkept : escaped.isKept = true := by decide +kernel
  obtain ⟨v, w, hv, hw, -, -, hsame⟩ := ofRaw_text_eq (show escaped.isReadable = true by decide +kernel)
  exact ⟨by decide +kernel, v, w, hv, hw, hsame hkept⟩

/-- a text with a number that has an exponent and no fraction -/
def exponential : Document where
  before := []
  root := .object (.last ⟨[], [.plain 'a' rfl], []⟩ [.space]
    (.atom (.number ⟨false, ⟨[1], by decide⟩, .inr (by decide), none, some ⟨false, none, ⟨[5], by decide⟩⟩⟩)) [])
  after := []
  isObject := rfl

/-- The number is read as a text. -/
theorem misreads_exponential :
    String.ofList exponential.text = "\x7b\"a\": 1e5\x7d" ∧
    ∃ v w, ofRaw (.text (String.ofList exponential.text)) = .ok v ∧ ofRaw exponential.data = .ok w ∧
      v.valueAt? "a" = some (.text "1e5") ∧ w.valueAt? "a" = some (.double (.ofInt 100000)) ∧
      v.toData ≠ w.toData := by
  have hfound : (do
      let v ← ofRaw (.text (String.ofList exponential.text))
      let w ← ofRaw exponential.data
      return (v.get? "a", w.get? "a") : Except Fault (Option Item × Option Item)).toOption =
      some (some (.scalar (.text "1e5")), some (.scalar (.double (.ofInt 100000)))) := by decide +kernel
  obtain ⟨v, hv, hrest⟩ := bind_eq_ok.1 (eq_ok_of_toOption hfound)
  obtain ⟨w, hw, hend⟩ := bind_eq_ok.1 hrest
  have hboth := Prod.mk.inj (Except.ok.inj hend)
  have htext : v.valueAt? "a" = some (.text "1e5") := by
    rw [valueAt?, hboth.1]
    rfl
  have hnumber : w.valueAt? "a" = some (.double (.ofInt 100000)) := by
    rw [valueAt?, hboth.2]
    rfl
  refine ⟨by decide +kernel, v, w, hv, hw, htext, hnumber, fun heq => ?_⟩
  have hkey : pathKeys "a" = ["a"] := by decide
  obtain ⟨top, htop⟩ := (isSound_of_ofRaw hv).root
  have hdata := toData_eq (isSound_of_ofRaw hv) htop
  have hlookup := lookup?_toData (isSound_of_ofRaw hv) hdata hkey
  have hlookup' := lookup?_toData (isSound_of_ofRaw hw) (heq.symm.trans hdata) hkey
  cases (hlookup.trans htext).symm.trans (hlookup'.trans hnumber)

end Values

end MeshOperator
