import MeshOperator.Data.Access

/-!
# Entries of mappings

What stands under a text in a mapping, in one that was made from texts, and in one after an entry was
put into it; and when data equals a text.

* `Data.lookup?_withEntry`: an entry that was put is found.
* `Data.entryOrElse_object`: reading a mapping with texts for keys.
* `Data.same_text`: only a text equals a text, and only the same one.
-/

namespace MeshOperator

/-! ### Equality with a text -/

theorem Scalar.same_text {a : Scalar} {s : String} : a.same (.text s) = true ↔ a = .text s := by
  cases a <;> simp [Scalar.same, Scalar.point?]

theorem Scalar.text_same {a : Scalar} {s : String} :
    (Scalar.text s).same a = true ↔ a = .text s := by
  cases a <;> simp [Scalar.same, Scalar.point?, eq_comm]

namespace Data

theorem same_text {d : Data} {s : String} : d.same (.text s) = true ↔ d = .text s := by
  cases d <;> simp [same, Scalar.same_text]

theorem text_same {d : Data} {s : String} : (Data.text s).same d = true ↔ d = .text s := by
  cases d <;> simp [same, Scalar.text_same]

theorem same_self_of_eq_text {d : Data} {s : String} (h : d = .text s) : d.same d = true := by
  rw [h]
  exact same_text.2 rfl

/-- a text between two equal data makes both the text -/
theorem eq_text_iff_of_same {a b : Data} (h : a.same b = true) (s : String) :
    a = .text s ↔ b = .text s := by
  constructor
  · rintro rfl
    exact text_same.1 h
  · rintro rfl
    exact same_text.1 h

/-! ### Looking up entries -/

theorem lookup?_cons_self (key : String) (v : Data) (es : List (Data × Data)) :
    lookup? key ((.text key, v) :: es) = some v := by
  simp [lookup?]

theorem lookup?_cons_of_ne {key : String} {k : Data} (h : k ≠ .text key) (v : Data)
    (es : List (Data × Data)) : lookup? key ((k, v) :: es) = lookup? key es := by
  cases k with
  | scalar x =>
    cases x with
    | text s => exact if_neg fun he => h (congrArg Data.text he)
    | _ => rfl
  | _ => rfl

theorem mem_of_lookup? {key : String} {v : Data} {es : List (Data × Data)} (h : lookup? key es = some v) :
    (.text key, v) ∈ es := by
  fun_induction lookup? key es <;> simp_all

theorem withEntry_cons_self (key : String) (v w : Data) (es : List (Data × Data)) :
    withEntry key v ((.text key, w) :: es) = (.text key, v) :: es := by
  simp [withEntry]

theorem withEntry_cons_of_ne {key : String} {k : Data} (h : k ≠ .text key) (v w : Data)
    (es : List (Data × Data)) : withEntry key v ((k, w) :: es) = (k, w) :: withEntry key v es := by
  cases k with
  | scalar x =>
    cases x with
    | text s => exact if_neg fun he => h (congrArg Data.text he)
    | _ => rfl
  | _ => rfl

theorem lookup?_withEntry (key : String) (v : Data) (es : List (Data × Data)) :
    lookup? key (withEntry key v es) = some v := by
  fun_induction withEntry key v es <;> simp_all [lookup?]

theorem lookup?_withEntry_of_ne {key other : String} (h : other ≠ key) (v : Data)
    (es : List (Data × Data)) : lookup? other (withEntry key v es) = lookup? other es := by
  fun_induction withEntry key v es <;> simp_all [lookup?, Ne.symm h]

theorem withEntry_ne_nil (key : String) (v : Data) (es : List (Data × Data)) :
    withEntry key v es ≠ [] := by
  fun_induction withEntry key v es <;> simp

/-- in a mapping with texts for keys, an entry is found as in a list of pairs -/
theorem lookup?_object (key : String) (es : List (String × Data)) :
    lookup? key (es.map fun e => (text e.1, e.2)) = es.lookup key := by
  induction es with
  | nil => rfl
  | cons e es ih =>
    obtain ⟨k, v⟩ := e
    by_cases h : k = key
    · subst h
      simp [lookup?]
    · have h' : (key == k) = false := beq_eq_false_iff_ne.2 (Ne.symm h)
      simp [lookup?, List.lookup_cons, h, h', ih]

/-! ### Reading entries -/

variable {es : List (Data × Data)} {key : String} {d e : Data}

@[simp] theorem entryOr_dict :
    (Data.dict es).entryOr key d = .ok ((lookup? key es).getD d) := rfl

@[simp] theorem entry_dict : (Data.dict es).entry key = .ok ((lookup? key es).getD .null) := rfl

@[simp] theorem entryOrElse_dict :
    (Data.dict es).entryOrElse key d = .ok (((lookup? key es).getD .null).orElse d) := rfl

theorem entryOrElse_object (fs : List (String × Data)) :
    (Data.object fs).entryOrElse key d = .ok (((fs.lookup key).getD .null).orElse d) := by
  rw [object, entryOrElse_dict, lookup?_object]

/-- only a mapping can be asked for an entry -/
theorem eq_dict_of_entry_ok (h : d.entry key = .ok e) : ∃ fs, d = .dict fs := by
  cases d <;> first | exact ⟨_, rfl⟩ | cases h

theorem eq_dict_of_entryOrElse_ok {f : Data} (h : d.entryOrElse key f = .ok e) :
    ∃ fs, d = .dict fs := by
  cases d <;> first | exact ⟨_, rfl⟩ | cases h

theorem truthy_dict (h : es ≠ []) : (Data.dict es).truthy = true := by
  cases es with
  | nil => exact absurd rfl h
  | cons e es => rfl

/-! ### Data that reading leaves as it is -/

/-- What a reading with the empty text as default does not replace: the empty text itself, and what
counts as yes. -/
def Stands (d : Data) : Prop := d.truthy = true ∨ d = .text ""

theorem stands_text (s : String) : (Data.text s).Stands := by
  by_cases h : s = ""
  · exact .inr (by rw [h])
  · exact .inl (by simpa [truthy, Scalar.truthy] using h)

theorem orElse_of_truthy (h : d.truthy = true) : d.orElse e = d := by
  rw [orElse, if_pos h]

theorem orElse_eq_or (d e : Data) : d.orElse e = d ∨ d.orElse e = e := by
  unfold orElse
  split
  · exact .inl rfl
  · exact .inr rfl

theorem eq_of_orElse_eq {x : Data} (h : d.orElse e = x) (hx : e ≠ x) : d = x := by
  rcases orElse_eq_or d e with hd | he
  · exact hd.symm.trans h
  · exact absurd (he.symm.trans h) hx

theorem orElse_stands (s : String) : (d.orElse (.text s)).Stands := by
  unfold orElse
  split
  · exact .inl ‹_›
  · exact stands_text s

end Data

end MeshOperator
