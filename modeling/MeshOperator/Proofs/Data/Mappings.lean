import Mathlib.Data.List.Forall2
import MeshOperator.Proofs.Data.Sameness

/-!
# Equal mappings

Mappings are equal if each entry of one has its equal in the other, in whatever order. Equality was stated with
one half of this and the numbers of entries; that the other half follows rests on keys being distinct, and on
equality of keys being symmetric and transitive.

* `Data.isKey`: what can be a key of a mapping.
* `Data.same_symm`, `Data.same_trans`: equality of keys.
* `Data.AgreeBut`: mappings that are equal but for the entries under some keys.
* `Data.same_dict_iff`: equal mappings.
* `Data.agreeBut_cons_iff`: what stands under one key more.
* `Data.same_object_iff`: equal objects, key by key.
-/

namespace MeshOperator

/-! ### Equality of points -/

namespace Extended

/-- The point is no ratio over zero. -/
def IsProper : Extended → Prop
  | .ratio _ den => den ≠ 0
  | _ => True

theorem equal_symm {x y : Extended} (h : x.equal y = true) : y.equal x = true := by
  cases x <;> cases y <;> simp_all [equal]

theorem equal_trans {x y z : Extended} (hy : y.IsProper) (hxy : x.equal y = true)
    (hyz : y.equal z = true) : x.equal z = true := by
  cases x <;> cases y <;> cases z <;> simp only [equal, reduceCtorEq, decide_eq_true_eq] at *
  rename_i a b c d e f
  have hd : (d : Int) ≠ 0 := Int.ofNat_ne_zero.2 hy
  refine Int.eq_of_mul_eq_mul_right hd ?_
  calc a * f * d = a * d * f := Int.mul_right_comm ..
    _ = c * b * f := by rw [hxy]
    _ = c * f * b := Int.mul_right_comm ..
    _ = e * d * b := by rw [hyz]
    _ = e * b * d := Int.mul_right_comm ..

end Extended

theorem Double.isProper_of_extended? {d : Double} {x : Extended} (h : d.extended? = some x) :
    x.IsProper := by
  cases d with
  | nan => cases h
  | infinite negative => cases negative <;> cases h <;> trivial
  | finite negative mantissa exponent =>
    simp only [extended?, Option.some.injEq] at h
    subst h
    have hpow : Nat.pow 2 (-exponent).toNat ≠ 0 := Nat.pos_iff_ne_zero.1 (Nat.pow_pos (by decide))
    unfold Extended.IsProper shiftRatio
    dsimp only
    split
    · exact Nat.one_ne_zero
    · rwa [Nat.one_mul]

namespace Scalar

variable {a b c : Scalar}

theorem isProper_of_point? {x : Extended} (h : a.point? = some x) : x.IsProper := by
  cases a with
  | bool b | int n =>
    cases h
    exact Nat.one_ne_zero
  | double d => exact Double.isProper_of_extended? h
  | _ => cases h

/-- scalars are equal if they are the same and no numbers, or stand at one point -/
theorem same_iff : a.same b = true ↔
    (a = b ∧ (a = .null ∨ (∃ s, a = .text s) ∨ ∃ s, a = .bytes s)) ∨
      ∃ x y, a.point? = some x ∧ b.point? = some y ∧ x.equal y = true := by
  cases a <;> cases b <;> simp [same, point?]
  -- one of the two has a point only if it is a number at all
  all_goals split <;> simp_all

theorem same_symm (h : a.same b = true) : b.same a = true := by
  rw [same_iff] at h ⊢
  rcases h with ⟨rfl, h⟩ | ⟨x, y, hx, hy, hxy⟩
  · exact .inl ⟨rfl, h⟩
  · exact .inr ⟨y, x, hy, hx, Extended.equal_symm hxy⟩

theorem same_trans (hab : a.same b = true) (hbc : b.same c = true) : a.same c = true := by
  rw [same_iff] at hab hbc ⊢
  rcases hab with ⟨rfl, -⟩ | ⟨x, y, hx, hy, hxy⟩
  · exact hbc
  · rcases hbc with ⟨rfl, -⟩ | ⟨y', z, hy', hz, hyz⟩
    · exact .inr ⟨x, y, hx, hy, hxy⟩
    · cases hy.symm.trans hy'
      exact .inr ⟨x, z, hx, hz, Extended.equal_trans (isProper_of_point? hy) hxy hyz⟩

end Scalar

namespace Data

/-! ### Equality of keys -/

mutual

/-- whether data can be a key of a mapping -/
def isKey : Data → Bool
  | .scalar _ | .date _ | .moment _ => true
  | .tuple items => areKeys items
  | _ => false

/-- the same of all items -/
def areKeys : List Data → Bool
  | [] => true
  | d :: ds => isKey d && areKeys ds

end

theorem same_tuple_iff {as bs : List Data} :
    (Data.tuple as).same (.tuple bs) = true ↔ List.Forall₂ (fun a b => a.same b = true) as bs := by
  rw [same, sameTests_eq, testsHold_map_iff]

mutual

theorem same_symm : ∀ a b : Data, a.isKey = true → a.same b = true → b.same a = true
  | .scalar a, b, _, h => by
    cases b with
    | scalar b =>
      rw [same] at h ⊢
      exact Scalar.same_symm h
    | _ => simp [same] at h
  | .date a, b, _, h => by
    cases b with
    | date b =>
      simp only [same, decide_eq_true_eq] at h ⊢
      exact h.symm
    | _ => simp [same] at h
  | .moment a, b, _, h => by
    cases b with
    | moment b =>
      simp only [same, Moment.same, Bool.and_eq_true, decide_eq_true_eq] at h ⊢
      exact ⟨h.1.symm, h.2.symm⟩
    | _ => simp [same] at h
  | .tuple as, b, hkey, h => by
    cases b with
    | tuple bs =>
      rw [isKey] at hkey
      rw [same_tuple_iff] at h ⊢
      exact sameItems_symm as bs hkey h
    | _ => simp [same] at h

theorem sameItems_symm : ∀ as bs : List Data, areKeys as = true →
    List.Forall₂ (fun a b => a.same b = true) as bs → List.Forall₂ (fun a b => a.same b = true) bs as
  | [], bs, _, h => by
    cases h
    exact .nil
  | a :: as, bs, hkeys, h => by
    cases h with
    | cons hab hrest =>
      rw [areKeys, Bool.and_eq_true] at hkeys
      exact .cons (same_symm a _ hkeys.1 hab) (sameItems_symm as _ hkeys.2 hrest)

end

mutual

theorem same_trans : ∀ a b c : Data, a.isKey = true → a.same b = true → b.same c = true → a.same c = true
  | .scalar a, b, c, _, hab, hbc => by
    cases b with
    | scalar b =>
      cases c with
      | scalar c =>
        rw [same] at hab hbc ⊢
        exact Scalar.same_trans hab hbc
      | _ => simp [same] at hbc
    | _ => simp [same] at hab
  | .date a, b, c, _, hab, hbc => by
    cases b with
    | date b =>
      simp only [same, decide_eq_true_eq] at hab
      rwa [hab]
    | _ => simp [same] at hab
  | .moment a, b, c, _, hab, hbc => by
    cases b with
    | moment b =>
      cases c with
      | moment c =>
        simp only [same, Moment.same, Bool.and_eq_true, decide_eq_true_eq] at hab hbc ⊢
        exact ⟨hab.1.trans hbc.1, hab.2.trans hbc.2⟩
      | _ => simp [same] at hbc
    | _ => simp [same] at hab
  | .tuple as, b, c, hkey, hab, hbc => by
    cases b with
    | tuple bs =>
      cases c with
      | tuple cs =>
        rw [isKey] at hkey
        rw [same_tuple_iff] at hab hbc ⊢
        exact sameItems_trans as bs cs hkey hab hbc
      | _ => simp [same] at hbc
    | _ => simp [same] at hab

theorem sameItems_trans : ∀ as bs cs : List Data, areKeys as = true →
    List.Forall₂ (fun a b => a.same b = true) as bs → List.Forall₂ (fun a b => a.same b = true) bs cs →
    List.Forall₂ (fun a b => a.same b = true) as cs
  | [], bs, cs, _, hab, hbc => by
    cases hab
    exact hbc
  | a :: as, bs, cs, hkeys, hab, hbc => by
    cases hab with
    | cons hab hab' =>
      cases hbc with
      | cons hbc hbc' =>
        rw [areKeys, Bool.and_eq_true] at hkeys
        exact .cons (same_trans a _ _ hkeys.1 hab hbc) (sameItems_trans as _ _ hkeys.2 hab' hbc')

end

/-! ### Entries that are found -/

/-- A list whose items are found in another, no two at one place, is not longer. -/
theorem length_le_of_found {α β : Type} {R : α → β → Prop} {as : List α} {bs : List β}
    (hfound : ∀ a ∈ as, ∃ b ∈ bs, R a b)
    (hapart : as.Pairwise fun a a' => ∀ b ∈ bs, R a b → ¬ R a' b) : as.length ≤ bs.length := by
  induction as generalizing bs with
  | nil => exact Nat.zero_le _
  | cons a as ih =>
    obtain ⟨ha, hrest⟩ := List.forall_mem_cons.1 hfound
    obtain ⟨hfirst, hapart⟩ := List.pairwise_cons.1 hapart
    obtain ⟨b, hb, hab⟩ := ha
    obtain ⟨bs₁, bs₂, rfl⟩ := List.append_of_mem hb
    -- the others are found beside the place of the first
    have hbeside : ∀ a' ∈ as, ∃ b' ∈ bs₁ ++ bs₂, R a' b' := by
      intro a' ha'
      obtain ⟨b', hb', hab'⟩ := hrest a' ha'
      have hne : b' ≠ b := by
        rintro rfl
        exact hfirst a' ha' b' hb hab hab'
      refine ⟨b', ?_, hab'⟩
      simpa [hne] using hb'
    have hapart' : as.Pairwise fun a a' => ∀ b' ∈ bs₁ ++ bs₂, R a b' → ¬ R a' b' := by
      refine hapart.imp fun h b' hb' => h b' ?_
      simp only [List.mem_append, List.mem_cons] at hb' ⊢
      exact hb'.imp_right .inr
    have hlength := ih hbeside hapart'
    simp only [List.length_append, List.length_cons] at hlength ⊢
    omega

/-- If it is not shorter either, everything in the other list was found. -/
theorem exists_of_found {α β : Type} {R : α → β → Prop} {as : List α} {bs : List β}
    (hfound : ∀ a ∈ as, ∃ b ∈ bs, R a b)
    (hapart : as.Pairwise fun a a' => ∀ b ∈ bs, R a b → ¬ R a' b) (hlength : bs.length ≤ as.length) :
    ∀ b ∈ bs, ∃ a ∈ as, R a b := by
  intro b hb
  by_contra hnone
  obtain ⟨bs₁, bs₂, rfl⟩ := List.append_of_mem hb
  have hmem {b'} (hb' : b' ∈ bs₁ ++ bs₂) : b' ∈ bs₁ ++ b :: bs₂ := by
    simp only [List.mem_append, List.mem_cons] at hb' ⊢
    exact hb'.imp_right .inr
  have hbeside : ∀ a ∈ as, ∃ b' ∈ bs₁ ++ bs₂, R a b' := by
    intro a ha
    obtain ⟨b', hb', hab'⟩ := hfound a ha
    have hne : b' ≠ b := by
      rintro rfl
      exact hnone ⟨a, ha, hab'⟩
    exact ⟨b', by simpa [hne] using hb', hab'⟩
  have hle := length_le_of_found hbeside (hapart.imp fun h b' hb' => h b' (hmem hb'))
  simp only [List.length_append, List.length_cons] at hlength hle
  omega

/-! ### Mappings -/

/-- The entries are those of a mapping: the keys can be keys, and no two are equal. -/
structure AreEntries (es : List (Data × Data)) : Prop where
  keys : ∀ e ∈ es, e.1.isKey = true
  apart : es.Pairwise fun e f => ¬ e.1.same f.1 = true

/-- Entries are equal: their keys are, and their values. -/
def SameEntry (e f : Data × Data) : Prop := e.1.same f.1 = true ∧ e.2.same f.2 = true

variable {es fs es' fs' : List (Data × Data)} {key : String} {keys : List String} {v : Data}

theorem areEntries_nil : AreEntries [] := ⟨List.forall_mem_nil _, .nil⟩

/-- texts that are distinct can be the keys of a mapping -/
theorem areEntries_object {es : List (String × Data)} (h : (es.map Prod.fst).Nodup) :
    AreEntries (es.map fun e => (text e.1, e.2)) := by
  constructor
  · rintro e he
    obtain ⟨f, -, rfl⟩ := List.mem_map.1 he
    rfl
  · rw [List.Nodup, List.pairwise_map] at h
    rw [List.pairwise_map]
    exact h.imp fun hne hsame => hne (by simpa using same_text.1 hsame)

theorem AreEntries.sublist (h : AreEntries es) (hsub : es'.Sublist es) : AreEntries es' :=
  ⟨fun e he => h.keys e (hsub.subset he), h.apart.sublist hsub⟩

/-- in a mapping what stands under a text is found -/
theorem AreEntries.lookup?_of_mem (h : AreEntries es) (hmem : (.text key, v) ∈ es) :
    lookup? key es = some v := by
  induction es with
  | nil => cases hmem
  | cons e es ih =>
    obtain ⟨k, w⟩ := e
    obtain ⟨hfirst, hapart⟩ := List.pairwise_cons.1 h.apart
    rcases List.mem_cons.1 hmem with heq | hrest
    · cases heq
      exact lookup?_cons_self key v es
    · have hk : k ≠ .text key := fun hk => hfirst _ hrest (by rw [hk]; exact same_text.2 rfl)
      rw [lookup?_cons_of_ne hk]
      exact ih (h.sublist (List.sublist_cons_self ..)) hrest

theorem mem_withEntry_of_ne {e : Data × Data} (he : e.1 ≠ .text key) :
    e ∈ withEntry key v es ↔ e ∈ es := by
  induction es with
  | nil =>
    have hne : e ≠ (.text key, v) := fun h => he (by rw [h])
    simp [withEntry, hne]
  | cons f es ih =>
    obtain ⟨k, w⟩ := f
    by_cases hk : k = .text key
    · have hne (u : Data) : e ≠ (.text key, u) := fun h => he (by rw [h])
      rw [hk, withEntry_cons_self]
      simp [hne]
    · rw [withEntry_cons_of_ne hk, List.mem_cons, List.mem_cons, ih]

theorem AreEntries.withEntry (h : AreEntries es) : AreEntries (withEntry key v es) := by
  induction es with
  | nil => exact ⟨by simp [Data.withEntry, isKey], List.pairwise_singleton ..⟩
  | cons e es ih =>
    obtain ⟨k, w⟩ := e
    obtain ⟨hfirst, hapart⟩ := List.pairwise_cons.1 h.apart
    obtain ⟨hkey, hkeys⟩ := List.forall_mem_cons.1 h.keys
    by_cases hk : k = .text key
    · rw [hk, withEntry_cons_self]
      rw [hk] at hfirst hkey
      exact ⟨List.forall_mem_cons.2 ⟨hkey, hkeys⟩, List.pairwise_cons.2 ⟨hfirst, hapart⟩⟩
    · rw [withEntry_cons_of_ne hk]
      obtain ⟨hkeys', hapart'⟩ := ih ⟨hkeys, hapart⟩
      refine ⟨List.forall_mem_cons.2 ⟨hkey, hkeys'⟩, List.pairwise_cons.2 ⟨fun f hf => ?_, hapart'⟩⟩
      by_cases hf1 : f.1 = .text key
      · rw [hf1, same_text]
        exact hk
      · exact hfirst f ((mem_withEntry_of_ne hf1).1 hf)

/-! ### Mappings that agree -/

/-- The key is none of some texts. -/
def IsOther (keys : List String) (k : Data) : Prop := ∀ key ∈ keys, k ≠ .text key

/-- But for what stands under some keys, two mappings are equal: each entry of either has its equal in the
other. -/
structure AgreeBut (keys : List String) (es fs : List (Data × Data)) : Prop where
  right : ∀ e ∈ es, IsOther keys e.1 → ∃ f ∈ fs, SameEntry e f
  left : ∀ f ∈ fs, IsOther keys f.1 → ∃ e ∈ es, SameEntry e f

/-- But for what stands under some keys, two mappings hold the same entries. -/
def HoldAlike (keys : List String) (es fs : List (Data × Data)) : Prop :=
  ∀ e, IsOther keys e.1 → (e ∈ es ↔ e ∈ fs)

theorem isOther_nil (k : Data) : IsOther [] k := fun _ hkey => nomatch hkey

theorem isOther_cons_iff {k : Data} :
    IsOther (key :: keys) k ↔ k ≠ .text key ∧ IsOther keys k := List.forall_mem_cons

theorem SameEntry.isOther_iff {e f : Data × Data} (h : SameEntry e f) :
    IsOther keys e.1 ↔ IsOther keys f.1 :=
  forall₂_congr fun key _ => not_congr (eq_text_iff_of_same h.1 key)

theorem HoldAlike.symm (h : HoldAlike keys es fs) : HoldAlike keys fs es := fun e he => (h e he).symm

theorem HoldAlike.trans (h : HoldAlike keys es fs) (h' : HoldAlike keys fs es') : HoldAlike keys es es' :=
  fun e he => (h e he).trans (h' e he)

theorem holdAlike_withEntry (hkey : key ∈ keys) : HoldAlike keys (Data.withEntry key v es) es :=
  fun _ he => mem_withEntry_of_ne (he key hkey)

theorem AgreeBut.of_holdAlike (h : AgreeBut keys es fs) (hes : HoldAlike keys es es')
    (hfs : HoldAlike keys fs fs') : AgreeBut keys es' fs' := by
  constructor
  · intro e he hother
    obtain ⟨f, hf, hsame⟩ := h.right e ((hes e hother).2 he) hother
    exact ⟨f, (hfs f (hsame.isOther_iff.1 hother)).1 hf, hsame⟩
  · intro f hf hother
    obtain ⟨e, he, hsame⟩ := h.left f ((hfs f hother).2 hf) hother
    exact ⟨e, (hes e (hsame.isOther_iff.2 hother)).1 he, hsame⟩

theorem agreeBut_congr (hes : HoldAlike keys es es') (hfs : HoldAlike keys fs fs') :
    AgreeBut keys es fs ↔ AgreeBut keys es' fs' :=
  ⟨fun h => h.of_holdAlike hes hfs, fun h => h.of_holdAlike hes.symm hfs.symm⟩

/-- no two entries of a mapping have one equal -/
theorem AreEntries.apart_right (hes : AreEntries es) :
    es.Pairwise fun e e' => ∀ f ∈ fs, SameEntry e f → ¬ SameEntry e' f := by
  refine hes.apart.imp_of_mem ?_
  rintro e e' he he' hne f - ⟨hef, -⟩ ⟨hef', -⟩
  exact hne (same_trans _ _ _ (hes.keys e he) hef (same_symm _ _ (hes.keys e' he') hef'))

/-- no two entries of a mapping are equal to one entry of another -/
theorem AreEntries.apart_left (hfs : AreEntries fs) (hes : AreEntries es) :
    fs.Pairwise fun f f' => ∀ e ∈ es, SameEntry e f → ¬ SameEntry e f' := by
  refine hfs.apart.imp_of_mem ?_
  rintro f f' hf - hne e he ⟨hef, -⟩ ⟨hef', -⟩
  exact hne (same_trans _ _ _ (hfs.keys f hf) (same_symm _ _ (hes.keys e he) hef) hef')

theorem same_dict_iff (hes : AreEntries es) (hfs : AreEntries fs) :
    (Data.dict es).same (.dict fs) = true ↔ AgreeBut [] es fs := by
  have hmeet : (Data.dict es).same (.dict fs) = true ↔
      es.length = fs.length ∧ ∀ e ∈ es, ∃ f ∈ fs, SameEntry e f := by
    rw [same, entryTests_eq, testsMeet]
    simp [SameEntry]
  rw [hmeet]
  constructor
  · rintro ⟨hlength, hfound⟩
    have hall := exists_of_found hfound hes.apart_right (Nat.le_of_eq hlength.symm)
    exact ⟨fun e he _ => hfound e he, fun f hf _ => hall f hf⟩
  · rintro ⟨hright, hleft⟩
    have hfound := fun e he => hright e he (isOther_nil e.1)
    have hfound' := fun f hf => hleft f hf (isOther_nil f.1)
    have hle := length_le_of_found hfound hes.apart_right
    have hge := length_le_of_found hfound' (hfs.apart_left hes)
    exact ⟨Nat.le_antisymm hle hge, hfound⟩

/-- what is related to something is something -/
theorem exists_of_rel {α β : Type} {R : α → β → Prop} {a : Option α} {b : Option β} (h : Option.Rel R a b) :
    (∀ x, a = some x → ∃ y, b = some y ∧ R x y) ∧ ∀ y, b = some y → ∃ x, a = some x ∧ R x y := by
  cases h <;> simp_all

/-- Mappings that agree but for some keys agree under one of them too if what stands there is equal. -/
theorem agreeBut_cons_iff (hes : AreEntries es) (hfs : AreEntries fs) (hkey : key ∉ keys) :
    AgreeBut keys es fs ↔ AgreeBut (key :: keys) es fs ∧
      Option.Rel (fun a b => a.same b = true) (lookup? key es) (lookup? key fs) := by
  have hthere : IsOther keys (.text key) := by
    rintro other hother heq
    cases heq
    exact hkey hother
  constructor
  · intro h
    refine ⟨⟨fun e he hother => h.right e he (isOther_cons_iff.1 hother).2,
      fun f hf hother => h.left f hf (isOther_cons_iff.1 hother).2⟩, ?_⟩
    cases hv : lookup? key es with
    | some v =>
      obtain ⟨⟨k, w⟩, hf, hk, hsame⟩ := h.right _ (mem_of_lookup? hv) hthere
      cases text_same.1 hk
      rw [hfs.lookup?_of_mem hf]
      exact .some hsame
    | none =>
      cases hw : lookup? key fs with
      | none => exact .none
      | some w =>
        obtain ⟨⟨k, v⟩, he, hk, -⟩ := h.left _ (mem_of_lookup? hw) hthere
        cases same_text.1 hk
        rw [hes.lookup?_of_mem he] at hv
        cases hv
  · rintro ⟨h, hrel⟩
    constructor
    · rintro ⟨k, v⟩ he hother
      by_cases hk : k = .text key
      · cases hk
        obtain ⟨w, hw, hsame⟩ := (exists_of_rel hrel).1 v (hes.lookup?_of_mem he)
        exact ⟨_, mem_of_lookup? hw, same_text.2 rfl, hsame⟩
      · exact h.right _ he (isOther_cons_iff.2 ⟨hk, hother⟩)
    · rintro ⟨k, w⟩ hf hother
      by_cases hk : k = .text key
      · cases hk
        obtain ⟨v, hv, hsame⟩ := (exists_of_rel hrel).2 w (hfs.lookup?_of_mem hf)
        exact ⟨_, mem_of_lookup? hv, same_text.2 rfl, hsame⟩
      · exact h.left _ hf (isOther_cons_iff.2 ⟨hk, hother⟩)

/-- The same for several keys more, one after the other. -/
theorem agreeBut_append_iff {others : List String} (hes : AreEntries es) (hfs : AreEntries fs)
    (hkeys : (keys ++ others).Nodup) :
    AgreeBut others es fs ↔ AgreeBut (keys ++ others) es fs ∧
      ∀ key ∈ keys, Option.Rel (fun a b => a.same b = true) (lookup? key es) (lookup? key fs) := by
  induction keys with
  | nil => simp
  | cons key keys ih =>
    obtain ⟨hkey, hrest⟩ : key ∉ keys ++ others ∧ (keys ++ others).Nodup := List.nodup_cons.1 hkeys
    rw [ih hrest, agreeBut_cons_iff hes hfs hkey, List.forall_mem_cons, and_assoc, List.cons_append]

/-- Objects are equal if they hold equal data under each key that stands in one of them. -/
theorem same_object_iff {es fs : List (String × Data)} (hes : (es.map Prod.fst).Nodup)
    (hfs : (fs.map Prod.fst).Nodup) (hkeys : keys.Nodup) (hes' : es.map Prod.fst ⊆ keys)
    (hfs' : fs.map Prod.fst ⊆ keys) :
    (object es).same (object fs) = true ↔
      ∀ key ∈ keys, Option.Rel (fun a b => a.same b = true) (es.lookup key) (fs.lookup key) := by
  have hnone {gs : List (String × Data)} (hgs : gs.map Prod.fst ⊆ keys) :
      ∀ e ∈ gs.map fun e => (text e.1, e.2), ¬ IsOther keys e.1 := by
    intro e he hother
    obtain ⟨g, hg, rfl⟩ := List.mem_map.1 he
    exact hother g.1 (hgs (List.mem_map_of_mem hg)) rfl
  have hall : AgreeBut keys (es.map fun e => (text e.1, e.2)) (fs.map fun e => (text e.1, e.2)) :=
    ⟨fun e he hother => absurd hother (hnone hes' e he),
      fun f hf hother => absurd hother (hnone hfs' f hf)⟩
  have hnodup : (keys ++ []).Nodup := by rwa [List.append_nil]
  rw [object, object, same_dict_iff (areEntries_object hes) (areEntries_object hfs),
    agreeBut_append_iff (areEntries_object hes) (areEntries_object hfs) hnodup, List.append_nil]
  simp only [hall, true_and, lookup?_object]

end Data

end MeshOperator
