import MeshOperator.Proofs.Cluster.Steady
import MeshOperator.Proofs.Data.Entries

/-!
# Revisions apart

Objects stand under keys. When the status under one key is written, what stands under another key stays, and
statuses under two keys can be written in either order.

* `Key.IsText`: a key of texts, which is the same as no other key.
* `Cluster.find?_put_of_ne`, `Cluster.put_comm`: what is put under one key, beside others.
* `Cluster.revision?_withStatus_of_ne`, `Cluster.withStatus_comm`: writing a status, beside others.
* `Cluster.withStatus?`: writing a status, if there is one to write.
-/

namespace MeshOperator

/-- The namespace and the name are texts. -/
structure Key.IsText (k : Key) : Prop where
  ns : ∃ ns, k.ns = .text ns
  name : ∃ name, k.name = .text name

namespace Key.IsText

variable {j k : Key} (hk : k.IsText)
include hk

/-- a key is the same as one of texts only if it is this key -/
theorem same_iff : j.same k = true ↔ j = k := by
  obtain ⟨⟨ns, hns⟩, ⟨name, hname⟩⟩ := hk
  obtain ⟨jns, jname⟩ := j
  obtain ⟨kns, kname⟩ := k
  subst hns hname
  simp [Key.same, Data.same_text]

theorem same_of_ne (hne : j ≠ k) : k.same j = false := by
  obtain ⟨⟨ns, hns⟩, ⟨name, hname⟩⟩ := hk
  rw [← Bool.not_eq_true, Key.same, hns, hname, Bool.and_eq_true, Data.text_same, Data.text_same]
  rintro ⟨hjns, hjname⟩
  apply hne
  rw [← hns] at hjns
  rw [← hname] at hjname
  obtain ⟨jns, jname⟩ := j
  obtain ⟨kns, kname⟩ := k
  subst hjns hjname
  rfl

end Key.IsText

namespace Cluster

variable {j k : Key}

/-! ### Under keys -/

section Put

variable {α : Type} (hk : k.IsText)
include hk

/-- what is put under one key leaves what stands under another -/
theorem find?_put_of_ne (hne : j ≠ k) (a : α) (es : List (Key × α)) :
    find? j (put k a es) = find? j es := by
  have hother : k.same j = false := hk.same_of_ne hne
  induction es with
  | nil => simp [put, find?, hother]
  | cons e es ih =>
    by_cases he : e.1.same k = true
    · have hkey : e.1 = k := hk.same_iff.1 he
      rw [put, if_pos he, find?, find?, hkey, hother]
      rfl
    · rw [put, if_neg he, find?, find?, ih]

/-- What is put under a key where something stands, and what is put under another key, can be put there in
either order. -/
theorem put_comm (hj : j.IsText) (hne : j ≠ k) (a b : α) {es : List (Key × α)}
    (hfound : (find? k es).isSome = true) : put j b (put k a es) = put k a (put j b es) := by
  have hkj : k.same j = false := hk.same_of_ne hne
  have hjk : j.same k = false := hj.same_of_ne (Ne.symm hne)
  induction es with
  | nil => cases hfound
  | cons e es ih =>
    by_cases hek : e.1.same k = true
    · have hkey : e.1 = k := hk.same_iff.1 hek
      simp [put, hkey, hkj, hk.same_iff]
    · by_cases hej : e.1.same j = true
      · have hkey : e.1 = j := hj.same_iff.1 hej
        simp [put, hkey, hjk, hj.same_iff]
      · rw [find?, if_neg hek] at hfound
        rw [put, if_neg hek, put, if_neg hej, put, if_neg hej, put, if_neg hek, ih hfound]

end Put

/-! ### Statuses -/

variable {c : Cluster} {s t : Data}

theorem withStatus_of_dict {es : List (Data × Data)} (h : c.revision? k = some (.dict es)) (s : Data) :
    c.withStatus k s = { c with revisions := put k (.dict (Data.withEntry "status" s es)) c.revisions } := by
  rw [withStatus, h]

/-- where no object stands, no status is written -/
theorem withStatus_of_not_dict (h : ∀ es, c.revision? k ≠ some (.dict es)) (s : Data) :
    c.withStatus k s = c := by
  unfold withStatus
  split
  · rename_i es hes
    exact absurd hes (h es)
  · rfl

theorem clock_withStatus (c : Cluster) (k : Key) (s : Data) : (c.withStatus k s).clock = c.clock := by
  unfold withStatus
  split <;> rfl

theorem revision?_withStatus_of_ne (hk : k.IsText) (hne : j ≠ k) (s : Data) :
    (c.withStatus k s).revision? j = c.revision? j := by
  unfold withStatus
  split
  · exact find?_put_of_ne hk hne _ _
  · rfl

/-- the statuses under two keys can be written in either order -/
theorem withStatus_comm (hj : j.IsText) (hk : k.IsText) (hne : j ≠ k) (s t : Data) :
    (c.withStatus j s).withStatus k t = (c.withStatus k t).withStatus j s := by
  by_cases hjs : ∃ es, c.revision? j = some (.dict es)
  · by_cases hks : ∃ es, c.revision? k = some (.dict es)
    · obtain ⟨es, hes⟩ := hjs
      obtain ⟨fs, hfs⟩ := hks
      have hes' : (c.withStatus k t).revision? j = some (.dict es) := by
        rw [revision?_withStatus_of_ne hk hne, hes]
      have hfs' : (c.withStatus j s).revision? k = some (.dict fs) := by
        rw [revision?_withStatus_of_ne hj (Ne.symm hne), hfs]
      have hfound : (find? k c.revisions).isSome = true := by
        rw [revision?] at hfs
        rw [hfs]
        rfl
      rw [withStatus_of_dict hfs', withStatus_of_dict hes', withStatus_of_dict hes, withStatus_of_dict hfs]
      dsimp only
      rw [put_comm hk hj hne _ _ hfound]
    · have hks' : ∀ fs, (c.withStatus j s).revision? k ≠ some (.dict fs) := by
        intro fs hfs
        rw [revision?_withStatus_of_ne hj (Ne.symm hne)] at hfs
        exact hks ⟨fs, hfs⟩
      rw [withStatus_of_not_dict hks', withStatus_of_not_dict fun fs hfs => hks ⟨fs, hfs⟩]
  · have hjs' : ∀ es, (c.withStatus k t).revision? j ≠ some (.dict es) := by
      intro es hes
      rw [revision?_withStatus_of_ne hk hne] at hes
      exact hjs ⟨es, hes⟩
    rw [withStatus_of_not_dict hjs', withStatus_of_not_dict fun es hes => hjs ⟨es, hes⟩]

/-- with the status under a key written, if there is one to write -/
def withStatus? (c : Cluster) (k : Key) : Option Data → Cluster
  | none => c
  | some s => c.withStatus k s

theorem alike_withStatus? (c : Cluster) (k : Key) (o : Option Data) : c.Alike (c.withStatus? k o) := by
  cases o with
  | none => exact .refl c
  | some s => exact c.alike_withStatus k s

theorem clock_withStatus? (c : Cluster) (k : Key) (o : Option Data) :
    (c.withStatus? k o).clock = c.clock := by
  cases o with
  | none => rfl
  | some s => exact c.clock_withStatus k s

theorem revision?_withStatus?_of_ne (hk : k.IsText) (hne : j ≠ k) (o : Option Data) :
    (c.withStatus? k o).revision? j = c.revision? j := by
  cases o with
  | none => rfl
  | some s => exact revision?_withStatus_of_ne hk hne s

theorem withStatus?_comm (hj : j.IsText) (hk : k.IsText) (hne : j ≠ k) (o : Option Data) (t : Data) :
    (c.withStatus? j o).withStatus k t = (c.withStatus k t).withStatus? j o := by
  cases o with
  | none => rfl
  | some s => exact withStatus_comm hj hk hne s t

end Cluster

end MeshOperator
