import MeshOperator.Proofs.Chart.Patches
import MeshOperator.Proofs.Cluster.Stored
import MeshOperator.Proofs.Data.MergePatch
import MeshOperator.Proofs.Text.Cutting
import MeshOperator.Watch.Kind

/-!
# From a stamped object to its owner

An object that was stamped for a revision is to lead back to it. The annotations of an object without a
namespace name the revision in full. An owner reference names it without its namespace, which is taken
to be that of the object; so an object in another namespace leads to another revision.

* `ownerOfAnnotations?_mergePatch`, `ownerOfReferences?_mergePatch`: what a stamp leads to.
* `WatchedKind.owner?_iff`: a stamped object leads back to its owner exactly if its manifest names no
  other namespace.
-/

namespace MeshOperator

open Data (mergePatch lookup? withEntry)

/-! ### Keys as texts -/

theorem Key.toList_text (ns name : String) :
    (Key.mk (.text ns) (.text name)).text.toList = ns.toList ++ '/' :: name.toList := by
  simp [Key.text, Data.plainText]

/-- the text of a key is read back if its namespace has no slash and neither part is empty -/
theorem keyOfText?_text {ns name : String} (hns : ns ≠ "") (hslash : '/' ∉ ns.toList)
    (hname : name ≠ "") : keyOfText? (Key.mk (.text ns) (.text name)).text =
      some ⟨.text ns, .text name⟩ := by
  have hns' : ns.toList.isEmpty = false := by simpa using hns
  have hname' : name.toList.isEmpty = false := by simpa using hname
  rw [keyOfText?, Key.toList_text, Text.cutFirst?_append hslash]
  simp [hns', hname']

/-! ### What a stamp leads to -/

/-- the entries of the metadata of an object -/
def aboutOf (live : Data) : List (Data × Data) :=
  ((lookup? "metadata" live.ownEntries).getD .null).ownEntries

/-- a patch of one field of the metadata -/
def metadataPatch (field : String) (v : Data) : Data := .object [("metadata", .object [(field, v)])]

theorem metadataOf_mergePatch {live v : Data} {field : String} (hv : v.isNull = false) :
    metadataOf (live.mergePatch (metadataPatch field v)) =
      .ok (.dict (withEntry field (mergePatch ((lookup? field (aboutOf live)).getD .null) v)
        (aboutOf live))) := by
  rw [metadataPatch, Data.mergePatch_entry rfl, Data.mergePatch_entry hv, metadataOf,
    Data.entryOrElse_dict, Data.lookup?_withEntry]
  refine congrArg Except.ok (Data.orElse_of_truthy ?_)
  exact Data.truthy_dict (Data.withEntry_ne_nil _ _ _)

/-- the text that stands for a revision's kind in annotations -/
def ownerType : String := revisionKind ++ "." ++ apiGroup

/-- the kind and the group before and after the first point are those of a revision only in one text -/
theorem eq_ownerType_iff (type : String) :
    (String.ofList ((Text.cutFirst? '.' type.toList).getD (type.toList, [])).1 = revisionKind ∧
      String.ofList ((Text.cutFirst? '.' type.toList).getD (type.toList, [])).2 = apiGroup) ↔
    type = ownerType := by
  constructor
  · rintro ⟨hkind, hgroup⟩
    cases hcut : Text.cutFirst? '.' type.toList with
    | none =>
      rw [hcut] at hgroup
      have hempty : String.ofList [] ≠ apiGroup := by decide
      exact absurd hgroup hempty
    | some parts =>
      rw [hcut] at hkind hgroup
      obtain ⟨htype, -⟩ := Text.cutFirst?_eq_some_iff.1 hcut
      rw [← String.toList_inj, htype, ownerType, ← hkind, ← hgroup]
      simp
  · rintro rfl
    decide

/-- what annotations say of an owner, if the two marks are texts or missing -/
theorem ownerNote_dict {notes : List (Data × Data)} {primary type : String}
    (hprimary : (lookup? ownerMark notes).getD (.text "") = .text primary)
    (htype : (lookup? ownerTypeMark notes).getD (.text "") = .text type) : ownerNote (.dict notes) = .ok {
    key := keyOfText? primary
    kind := String.ofList ((Text.cutFirst? '.' type.toList).getD (type.toList, [])).1
    group := String.ofList ((Text.cutFirst? '.' type.toList).getD (type.toList, [])).2 } := by
  have hnotes : (Data.dict notes).orElse (.dict []) = .dict notes := by
    cases notes <;> rfl
  rw [ownerNote, hnotes]
  dsimp only
  rw [Data.entryOr_dict, ok_bind, hprimary, Data.entryOr_dict, htype]
  by_cases hempty : primary = ""
  · rw [hempty]
    rfl
  · rw [if_pos (by simpa [Data.truthy, Scalar.truthy] using hempty)]
    rfl

/-- the annotations of a stamp lead to the owner that they name -/
theorem ownerOfAnnotations?_mergePatch {ns name : String} (hns : ns ≠ "")
    (hslash : '/' ∉ ns.toList) (hname : name ≠ "") (live : Data) :
    ownerOfAnnotations? (live.mergePatch
      (metadataPatch "annotations" (ownershipAnnotations (.text ns) (.text name)))) =
      .ok (some ⟨.text ns, .text name⟩) := by
  have hmarks : ownerMark ≠ ownerTypeMark := by decide
  rw [ownerOfAnnotations?, metadataOf_mergePatch rfl, ok_bind, Data.entry_dict,
    Data.lookup?_withEntry, Option.getD_some, ok_bind]
  -- the marks stand among the annotations, whatever stood there before
  generalize (lookup? "annotations" (aboutOf live)).getD .null = annotations
  have hstamp : annotations.mergePatch (ownershipAnnotations (.text ns) (.text name)) =
      .dict (withEntry ownerTypeMark (.text ownerType)
        (withEntry ownerMark (.text (Key.mk (.text ns) (.text name)).text)
          annotations.ownEntries)) := by
    have hpatch : ownershipAnnotations (.text ns) (.text name) = .dict
        [(.text ownerMark, .text (Key.mk (.text ns) (.text name)).text),
          (.text ownerTypeMark, .text ownerType)] := rfl
    rw [hpatch, Data.mergePatch, Data.mergeEntries_cons rfl, Data.mergeEntries_cons rfl,
      Data.mergeEntries, Data.mergePatch_text, Data.mergePatch_text]
  have hprimary : (lookup? ownerMark (withEntry ownerTypeMark (.text ownerType)
      (withEntry ownerMark (.text (Key.mk (.text ns) (.text name)).text)
        annotations.ownEntries))).getD (.text "") = .text (Key.mk (.text ns) (.text name)).text := by
    rw [Data.lookup?_withEntry_of_ne hmarks, Data.lookup?_withEntry, Option.getD_some]
  rw [hstamp, if_pos (Data.truthy_dict (Data.withEntry_ne_nil _ _ _)),
    ownerNote_dict hprimary (congrArg (Option.getD · _) (Data.lookup?_withEntry ..)), ok_bind]
  dsimp only
  rw [if_pos ((eq_ownerType_iff ownerType).2 rfl), keyOfText?_text hns hslash hname]
  rfl

theorem isRevisionReference_reference (r : Revision) : isRevisionReference r.reference = .ok true := by
  rfl

/-- the owner reference of a stamp leads to the revision of its name in the namespace of the object -/
theorem ownerOfReferences?_mergePatch {r : Revision} {live : Data} {ns : String}
    (lives : lookup? "namespace" (aboutOf live) = some (.text ns)) :
    ownerOfReferences? (live.mergePatch (metadataPatch "ownerReferences" (.list [r.reference]))) =
      .ok (if ns = "" then none else some ⟨.text ns, r.name⟩) := by
  have hother : "namespace" ≠ "ownerReferences" := by decide
  have hname : r.reference.required "name" = .ok r.name := rfl
  rw [ownerOfReferences?, metadataOf_mergePatch rfl, ok_bind, Data.entry_dict,
    Data.lookup?_withEntry_of_ne hother, lives, Option.getD_some, ok_bind, Data.entryOrElse_dict,
    Data.lookup?_withEntry, Option.getD_some, Data.mergePatch_list, ok_bind]
  by_cases hns : ns = ""
  · rw [if_pos hns, hns]
    rfl
  · have htruthy : (Data.text ns).truthy = true := by simpa [Data.truthy, Scalar.truthy] using hns
    have hlist : (Data.list [r.reference]).orElse (.list []) = .list [r.reference] := rfl
    rw [if_neg hns, if_pos htruthy, hlist, Data.members, ok_bind, firstOwner?,
      isRevisionReference_reference, ok_bind, if_pos rfl, hname, ok_bind]
    rfl

/-! ### Stamped objects -/

/-- The object is in a namespace. -/
def LivesIn (live : Data) (ns : String) : Prop := lookup? "namespace" (aboutOf live) = some (.text ns)

/-- An object of a manifest names a namespace other than `ns`. -/
def NamesOther (object : Data) (ns : String) : Prop :=
  ∃ about named, metadataOf object = .ok about ∧ about.entry "namespace" = .ok named ∧
    named.truthy = true ∧ named.plainText ≠ ns

namespace Chart

variable {c : Cluster} {o : Owner} {object : Data} {apiVersion kind body name target : Data}

/-- the stamp of an object that has one, and where it is sent -/
theorem stampOf_of_stampRequest? {namespaced : Bool}
    (hscope : c.kinds.answer apiVersion kind = .known namespaced)
    (h : stampRequest? c o object = some (.patchObject apiVersion kind body name target)) :
    stampOf o object namespaced = .ok (body, target) := by
  unfold stampRequest? at h
  cases hkind : kindOf? object with
  | error f =>
    rw [hkind] at h
    cases h
  | ok found =>
    cases found with
    | none =>
      rw [hkind] at h
      cases h
    | some found =>
      obtain ⟨version', kind'⟩ := found
      rw [hkind] at h
      dsimp only at h
      cases hspace : c.kinds.answer version' kind' with
      | unknown detail | failed detail =>
        rw [hspace] at h
        cases h
      | known namespaced' =>
        rw [hspace] at h
        dsimp only at h
        split at h
        · rename_i hstamp hname
          cases h
          rw [hscope] at hspace
          cases hspace
          exact hstamp
        · cases h

theorem stampOf_clusterWide (h : stampOf o object false = .ok (body, target)) :
    body = metadataPatch "annotations" (ownershipAnnotations o.ns o.name) := by
  obtain ⟨about, -, h⟩ := bind_eq_ok.1 h
  cases h
  rfl

/-- an object in a namespace gets an owner reference, in the namespace that it names or in that of the
owner -/
theorem stampOf_namespaced {ns : String} (hns : o.ns = .text ns)
    (h : stampOf o object true = .ok (body, target)) :
    body = metadataPatch "ownerReferences" (.list [o.reference]) ∧
      (target.plainText = ns ↔ ¬ NamesOther object ns) := by
  obtain ⟨about, habout, h⟩ := bind_eq_ok.1 h
  obtain ⟨named, hnamed, h⟩ := bind_eq_ok.1 h
  cases h
  refine ⟨rfl, ?_⟩
  have hother : NamesOther object ns ↔ named.truthy = true ∧ named.plainText ≠ ns := by
    constructor
    · rintro ⟨about', named', habout', hnamed', hother⟩
      cases habout.symm.trans habout'
      cases hnamed.symm.trans hnamed'
      exact hother
    · intro hother
      exact ⟨about, named, habout, hnamed, hother⟩
  rw [hother, hns]
  by_cases htruthy : named.truthy = true
  · rw [Data.orElse_of_truthy htruthy]
    simp [htruthy]
  · rw [Data.orElse, if_neg htruthy]
    simp [htruthy, Data.plainText]

end Chart

namespace WatchedKind

variable {cfg : Config} {c : Cluster} {r : Revision} {v : Values} {version : Data}
variable {charts : List String} {w : WatchedKind} {apiVersion body name' target live : Data}

/-- **Routing.**  Every patch that an installation sends for an object of a watched kind stamps an object
of a manifest. What it is sent to leads to the owner afterwards, whatever stood there, exactly if the kind
is without namespaces or the manifest names no other namespace than the owner's. -/
theorem owner?_iff {ns name : String} (hns : r.ns = .text ns) (hname : r.name = .text name)
    (hne : ns ≠ "") (hslash : '/' ∉ ns.toList) (hname_ne : name ≠ "")
    (sent : .call (.patchObject apiVersion (.text w.kind) body name' target) ∈
      (Chart.install cfg v version (Chart.ownerOf r) charts).journal c)
    (scope : c.kinds.answer apiVersion (.text w.kind) = .known w.namespaced)
    (lives : w.namespaced = true → LivesIn live target.plainText) :
    ∃ chart ∈ charts, ∃ object,
      Chart.IsStampOf c (Chart.ownerOf r) chart object
        (.call (.patchObject apiVersion (.text w.kind) body name' target)) ∧
      (w.owner? (live.mergePatch body) = .ok (some r.key) ↔
        ¬ (w.namespaced = true ∧ NamesOther object ns)) := by
  obtain ⟨chart, hchart, object, hstamp⟩ := Chart.isStampOf_of_install rfl sent
  refine ⟨chart, hchart, object, hstamp, ?_⟩
  obtain ⟨manifest, -, -, q, hq, hcall⟩ := hstamp
  cases hcall
  have hstampOf := Chart.stampOf_of_stampRequest? scope hq
  rw [owner?, Revision.key, hns, hname]
  cases hw : w.namespaced with
  | false =>
    rw [hw] at hstampOf
    have hbody := Chart.stampOf_clusterWide hstampOf
    have hkey := ownerOfAnnotations?_mergePatch hne hslash hname_ne live
    rw [hbody, Chart.ownerOf, hns, hname]
    simp [hkey]
  | true =>
    rw [hw] at hstampOf
    obtain ⟨hbody, htarget⟩ := Chart.stampOf_namespaced (o := Chart.ownerOf r) hns hstampOf
    have hkey := ownerOfReferences?_mergePatch (r := r) (lives hw)
    have hreference : (Chart.ownerOf r).reference = r.reference := rfl
    rw [if_pos rfl, hbody, hreference, hkey, hname]
    simp only [true_and]
    rw [← htarget]
    constructor
    · intro hfound
      split at hfound
      · cases hfound
      · cases hfound
        rfl
    · intro heq
      rw [heq, if_neg hne]

/-- the charts that hold a manifest, installed for a revision with a version -/
def deployment (manifest : String) : List Entry :=
  (Chart.install .standard .empty (.text "v1.22") (Chart.ownerOf .versioned) ["base"]).journal
    { Cluster.versioned with replies := [("get", .ended 0 manifest "")] }

/-- the kind of roles without a namespace -/
def clusterRole : WatchedKind where
  group := "rbac.authorization.k8s.io"
  version := "v1"
  plural := "clusterroles"
  kind := "ClusterRole"
  namespaced := false

/-- a manifest with a role without a namespace -/
def clusterReader : String :=
  "apiVersion: rbac.authorization.k8s.io/v1\nkind: ClusterRole\nmetadata:\n  name: reader\n"

/-- an entry tells of the patch of an object of a kind -/
def patches (w : WatchedKind) : Entry → Bool
  | .call (.patchObject _ (.text kind) _ _ _) => kind = w.kind
  | _ => false

/-- Its patch leads to its owner, whatever it is applied to. -/
theorem owner?_clusterReader :
    clusterRole ∈ all ∧ ∃ apiVersion body name target,
      .call (.patchObject apiVersion (.text clusterRole.kind) body name target) ∈
        deployment clusterReader ∧
      ∀ live, clusterRole.owner? (mergePatch live body) = .ok (some .sole) := by
  refine ⟨by decide, ?_⟩
  have hsent : (deployment clusterReader).any clusterRole.patches = true := by decide +kernel
  obtain ⟨e, he, hkind⟩ := List.any_eq_true.1 hsent
  unfold patches at hkind
  split at hkind
  · rename_i apiVersion kind body name target
    cases of_decide_eq_true hkind
    refine ⟨apiVersion, body, name, target, he, fun live => ?_⟩
    have hscoped : clusterRole.namespaced ≠ true := by decide
    obtain ⟨_, -, _, -, hiff⟩ := @owner?_iff _ _ .versioned _ _ _ clusterRole apiVersion body name
      target live "istio-system" "default" rfl rfl (by decide) (by decide) (by decide) he rfl
      fun h => absurd h hscoped
    exact hiff.2 fun h => hscoped h.1
  · cases hkind

/-- the kind of roles in namespaces -/
def role : WatchedKind where
  group := "rbac.authorization.k8s.io"
  version := "v1"
  plural := "roles"
  kind := "Role"

/-- a manifest with a role in another namespace than that of its owner -/
def foreignReader : String :=
  "apiVersion: rbac.authorization.k8s.io/v1\nkind: Role\nmetadata:\n  name: reader\n  namespace: kube-system\n"

/-- this role, as the cluster has it -/
def liveReader : Data :=
  .object [("metadata", .object [("name", .text "reader"), ("namespace", .text "kube-system")])]

/-- an entry tells of the patch of this role, sent to where it is, that does not lead to its owner -/
def straysBy : Entry → Bool
  | .call (.patchObject _ (.text kind) body _ target) =>
    kind = role.kind && target.same (.text "kube-system") &&
      match role.owner? (mergePatch liveReader body) with
      | .ok (some k) => !k.same .sole
      | _ => true
  | _ => false

/-- Its patch is sent to where the role is, and does not lead to its owner. -/
theorem strays_foreignReader :
    role ∈ all ∧ ∃ apiVersion body name target,
      .call (.patchObject apiVersion (.text role.kind) body name target) ∈ deployment foreignReader ∧
      Cluster.versioned.kinds.answer apiVersion (.text role.kind) = .known role.namespaced ∧
      LivesIn liveReader target.plainText ∧
      role.owner? (mergePatch liveReader body) ≠ .ok (some .sole) := by
  refine ⟨by decide, ?_⟩
  have hsent : (deployment foreignReader).any straysBy = true := by decide +kernel
  obtain ⟨e, he, htest⟩ := List.any_eq_true.1 hsent
  unfold straysBy at htest
  split at htest
  · rename_i apiVersion kind body name target
    simp only [Bool.and_eq_true, decide_eq_true_eq] at htest
    obtain ⟨⟨rfl, htarget⟩, howner⟩ := htest
    cases Data.same_text.1 htarget
    refine ⟨apiVersion, body, name, _, he, rfl, rfl, fun hfound => ?_⟩
    rw [hfound] at howner
    revert howner
    decide
  · cases htest

end WatchedKind

end MeshOperator
