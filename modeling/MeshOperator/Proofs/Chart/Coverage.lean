import MeshOperator.Proofs.Chart.Sequence
import MeshOperator.Proofs.Data.Entries

/-!
# What stamping covers

The documents of a manifest are stamped in order. One that is empty or has no kind is passed over; any other
gets one patch, made for its kind: with the owner reference and sent to its namespace, or with the two
annotations and sent to none. The first document that cannot be stamped ends the work, and none behind it is
touched.

* `Chart.IsStamp`: the patch of an object, told from its entries.
* `Chart.Stamps`: the patches of documents that are all passed over or stamped.
* `Chart.StopsAt`: why a document ends the stamping.
* `Chart.covers_stampRelease`: the stamping of a release covers its manifest, up to where it stops.
-/

namespace MeshOperator

namespace Chart

open MeshOperator.Action (Quiet)
open MeshOperator.Data (lookup?)

/-- A document counts as no or is a mapping. -/
def IsDocument (d : Data) : Prop := d.truthy = false ∨ ∃ es, d = .dict es

instance : DecidablePred IsDocument
  | .dict es => isTrue (.inr ⟨es, rfl⟩)
  | .scalar x => decidable_of_iff (x.truthy = false) (by simp [IsDocument, Data.truthy])
  | .list items | .tuple items | .set items => decidable_of_iff (items = []) (by simp [IsDocument, Data.truthy])
  | .date d | .moment d | .again d => isFalse (by simp [IsDocument, Data.truthy])

/-- A document has no kind. -/
def HasNoKind (d : Data) : Prop := d.truthy = false ∨ ∃ es, d = .dict es ∧ lookup? "kind" es = none

/-- The metadata of an object are a mapping, an empty one if there are none. -/
def HasMetadata (es about : List (Data × Data)) : Prop :=
  ((lookup? "metadata" es).getD .null).orElse (.dict []) = .dict about

/-- The patch of an object: the owner reference in a namespace of its own or else the owner's, or the two
annotations in none. -/
inductive IsStamp (c : Cluster) (o : Owner) : Data → Request → Prop
  | namespaced {es about : List (Data × Data)} {apiVersion kind name : Data}
      (hkind : lookup? "kind" es = some kind) (hversion : lookup? "apiVersion" es = some apiVersion)
      (hscope : c.kinds.answer apiVersion kind = .known true) (hmetadata : HasMetadata es about)
      (hname : lookup? "name" about = some name) :
      IsStamp c o (.dict es) (.patchObject apiVersion kind
        (.object [("metadata", .object [("ownerReferences", .list [o.reference])])]) name
        (((lookup? "namespace" about).getD .null).orElse o.ns))
  | clusterWide {es about : List (Data × Data)} {apiVersion kind name : Data}
      (hkind : lookup? "kind" es = some kind) (hversion : lookup? "apiVersion" es = some apiVersion)
      (hscope : c.kinds.answer apiVersion kind = .known false) (hmetadata : HasMetadata es about)
      (hname : lookup? "name" about = some name) :
      IsStamp c o (.dict es) (.patchObject apiVersion kind
        (.object [("metadata", .object [("annotations", .object [(ownerMark, .text o.key.text),
          (ownerTypeMark, .text (revisionKind ++ "." ++ apiGroup))])])]) name .null)

/-- Why a document ends the stamping, with what is sent for it: it has a kind but no version, a kind that is
not known under its version or that the API fails to tell of, metadata that are no mapping or no name, or its
patch is not taken. -/
inductive StopsAt (c : Cluster) (o : Owner) : Data → List Request → Prop
  | noVersion {es : List (Data × Data)} {kind : Data} (hkind : lookup? "kind" es = some kind)
      (hversion : lookup? "apiVersion" es = none) : StopsAt c o (.dict es) []
  | unknownKind {es : List (Data × Data)} {kind apiVersion : Data} {detail : String}
      (hkind : lookup? "kind" es = some kind) (hversion : lookup? "apiVersion" es = some apiVersion)
      (hscope : c.kinds.answer apiVersion kind = .unknown detail) : StopsAt c o (.dict es) []
  | untoldKind {es : List (Data × Data)} {kind apiVersion : Data} {detail : String}
      (hkind : lookup? "kind" es = some kind) (hversion : lookup? "apiVersion" es = some apiVersion)
      (hscope : c.kinds.answer apiVersion kind = .failed detail) : StopsAt c o (.dict es) []
  | noMetadata {es : List (Data × Data)} {kind : Data} (hkind : lookup? "kind" es = some kind)
      (hmetadata : ∀ about, ¬ HasMetadata es about) : StopsAt c o (.dict es) []
  | noName {es about : List (Data × Data)} {kind : Data} (hkind : lookup? "kind" es = some kind)
      (hmetadata : HasMetadata es about) (hname : lookup? "name" about = none) : StopsAt c o (.dict es) []
  | refused {d : Data} {q : Request} (hstamp : IsStamp c o d q) (hrefused : ¬ c.Takes q) :
      StopsAt c o d [q]

/-- Documents that are all passed over or stamped, and the patches that are sent for them. -/
inductive Stamps (c : Cluster) (o : Owner) : List Data → List Request → Prop
  | nil : Stamps c o [] []
  | pass {d : Data} {ds : List Data} {qs : List Request} (h : HasNoKind d) (hs : Stamps c o ds qs) :
      Stamps c o (d :: ds) qs
  | stamp {d : Data} {q : Request} {ds : List Data} {qs : List Request} (h : IsStamp c o d q)
      (htaken : c.Takes q) (hs : Stamps c o ds qs) : Stamps c o (d :: ds) (q :: qs)

/-- How the stamping of documents ends, and the patches that are sent for them. -/
inductive Covers (c : Cluster) (chart : String) (o : Owner) (ds : List Data) :
    Except Fault Unit → List Request → Prop
  /-- all documents are passed over or stamped -/
  | all {qs : List Request} (h : Stamps c o ds qs) : Covers c chart o ds (.ok ()) qs
  /-- those before a document are, and this one ends the work -/
  | upTo {before after : List Data} {d : Data} {qs last : List Request} {f : Fault}
      (hds : ds = before ++ d :: after) (h : Stamps c o before qs) (hstops : StopsAt c o d last)
      (hf : (stampObject chart o d).outcome c = .error f) : Covers c chart o ds (.error f) (qs ++ last)

variable {cfg : Config} {c : Cluster} {chart : String} {o : Owner} {d : Data} {es : List (Data × Data)}

/-! ### One document -/

theorem kindOf?_of_falsy (h : d.truthy = false) : kindOf? d = .ok none := by
  unfold kindOf?
  rw [h]
  rfl

theorem kindOf?_dict : kindOf? (.dict es) =
    match lookup? "kind" es with
    | none => .ok none
    | some kind =>
      match lookup? "apiVersion" es with
      | none => .error (.missing (.text "apiVersion"))
      | some apiVersion => .ok (some (apiVersion, kind)) := by
  cases es with
  | nil => rfl
  | cons e es =>
    rw [kindOf?, Data.truthy_dict (List.cons_ne_nil e es), Data.holds]
    cases hkind : lookup? "kind" (e :: es) with
    | none => rfl
    | some kind =>
      simp only [Data.required, hkind]
      cases lookup? "apiVersion" (e :: es) <;> rfl

theorem HasNoKind.kindOf?_eq (h : HasNoKind d) : kindOf? d = .ok none := by
  rcases h with hfalsy | ⟨es, rfl, hkind⟩
  · exact kindOf?_of_falsy hfalsy
  · rw [kindOf?_dict, hkind]

theorem kindOf?_ne {kind : Data} (h : lookup? "kind" es = some kind) : kindOf? (.dict es) ≠ .ok none := by
  rw [kindOf?_dict, h]
  dsimp only
  cases lookup? "apiVersion" es <;> simp

theorem HasMetadata.metadataOf_eq {about : List (Data × Data)} (h : HasMetadata es about) :
    metadataOf (.dict es) = .ok (.dict about) := by
  rw [metadataOf, Data.entryOrElse_dict, h]

/-- what stands in place of the metadata of an object is no mapping -/
theorem required_of_noMetadata (h : ∀ about, ¬ HasMetadata es about) :
    (do (← metadataOf (.dict es)).required "name" : Except Fault Data) = .error .unsuitable := by
  rw [metadataOf, Data.entryOrElse_dict, ok_bind]
  unfold HasMetadata at h
  revert h
  cases ((lookup? "metadata" es).getD .null).orElse (.dict []) with
  | dict about => exact fun h => absurd rfl (h about)
  | _ => exact fun _ => rfl

/-- An object with a kind gets its stamp, or ends the work. -/
theorem isStamp_or_stops (o : Owner) {kind : Data} (hkind : lookup? "kind" es = some kind) :
    (∃ q, IsStamp c o (.dict es) q ∧ stampRequest? c o (.dict es) = some q) ∨
      StopsAt c o (.dict es) [] ∧ stampRequest? c o (.dict es) = none := by
  unfold stampRequest?
  rw [kindOf?_dict, hkind]
  dsimp only
  cases hversion : lookup? "apiVersion" es with
  | none => exact .inr ⟨.noVersion hkind hversion, rfl⟩
  | some apiVersion =>
    dsimp only
    cases hscope : c.kinds.answer apiVersion kind with
    | unknown detail => exact .inr ⟨.unknownKind hkind hversion hscope, rfl⟩
    | failed detail => exact .inr ⟨.untoldKind hkind hversion hscope, rfl⟩
    | known namespaced =>
      dsimp only
      by_cases hmetadata : ∃ about, HasMetadata es about
      · obtain ⟨about, habout⟩ := hmetadata
        simp only [stampOf, habout.metadataOf_eq, ok_bind, Data.entry_dict, Data.required]
        cases hname : lookup? "name" about with
        | none =>
          refine .inr ⟨.noName hkind habout hname, ?_⟩
          cases namespaced <;> rfl
        | some name =>
          cases namespaced with
          | false => exact .inl ⟨_, .clusterWide hkind hversion hscope habout hname, rfl⟩
          | true => exact .inl ⟨_, .namespaced hkind hversion hscope habout hname, rfl⟩
      · have hnone := not_exists.1 hmetadata
        refine .inr ⟨.noMetadata hkind hnone, ?_⟩
        rw [required_of_noMetadata hnone]
        cases stampOf o (.dict es) namespaced <;> rfl

/-- How the stamping of a document ends, and the patches that are sent for it. -/
inductive Course (c : Cluster) (o : Owner) (d : Data) : Except Fault Unit → List Request → Prop
  | pass (h : HasNoKind d) : Course c o d (.ok ()) []
  | stamp {q : Request} (h : IsStamp c o d q) (htaken : c.Takes q) : Course c o d (.ok ()) [q]
  | stop {qs : List Request} {f : Fault} (h : StopsAt c o d qs) : Course c o d (.error f) qs

theorem course_of_not_isStamped (h : ¬ IsStamped c o d) {qs : List Request} (hstops : StopsAt c o d qs) :
    Course c o d ((stampObject chart o d).outcome c) qs := by
  cases houtcome : (stampObject chart o d).outcome c with
  | ok u => exact absurd (outcome_stampObject_eq_ok.1 houtcome) h
  | error f => exact .stop hstops

/-- A document is passed over, stamped, or ends the work. -/
theorem course_stampObject (c : Cluster) (chart : String) (o : Owner) (hd : IsDocument d) :
    ∃ qs, (stampObject chart o d).works c = qs.map .call ∧
      Course c o d ((stampObject chart o d).outcome c) qs := by
  refine ⟨(stampRequest? c o d).toList, works_stampObject c chart o d, ?_⟩
  by_cases hkind : HasNoKind d
  · have hgoes : (stampObject chart o d).outcome c = .ok () :=
      outcome_stampObject_eq_ok.2 (.inl hkind.kindOf?_eq)
    rw [hgoes, stampRequest?_of_noKind hkind.kindOf?_eq]
    exact .pass hkind
  · obtain ⟨es, rfl⟩ := hd.resolve_left fun hfalsy => hkind (.inl hfalsy)
    obtain ⟨kind, hes⟩ : ∃ kind, lookup? "kind" es = some kind :=
      Option.ne_none_iff_exists'.1 fun hnone => hkind (.inr ⟨es, rfl, hnone⟩)
    rcases isStamp_or_stops o hes with ⟨q, hstamp, hq⟩ | ⟨hstops, hnone⟩
    · rw [hq]
      by_cases htaken : c.Takes q
      · have hgoes : (stampObject chart o (.dict es)).outcome c = .ok () :=
          outcome_stampObject_eq_ok.2 (.inr ⟨q, hq, htaken⟩)
        rw [hgoes]
        exact .stamp hstamp htaken
      · refine course_of_not_isStamped ?_ (.refused hstamp htaken)
        rintro (hnoKind | ⟨q', hq', htaken'⟩)
        · exact kindOf?_ne hes hnoKind
        · cases hq.symm.trans hq'
          exact htaken htaken'
    · rw [hnone]
      refine course_of_not_isStamped ?_ hstops
      rintro (hnoKind | ⟨q, hq, -⟩)
      · exact kindOf?_ne hes hnoKind
      · cases hnone.symm.trans hq

/-! ### All documents -/

/-- a document before others that are covered -/
theorem Covers.cons {ds : List Data} {outcome : Except Fault Unit} {qs sent : List Request}
    (h : Course c o d (.ok ()) qs) (hds : Covers c chart o ds outcome sent) :
    Covers c chart o (d :: ds) outcome (qs ++ sent) := by
  cases hds with
  | all hs =>
    cases h with
    | pass hkind => exact .all (.pass hkind hs)
    | stamp hstamp htaken => exact .all (.stamp hstamp htaken hs)
  | upTo hds hs hstops hf =>
    subst hds
    rw [← List.append_assoc]
    cases h with
    | pass hkind => exact .upTo rfl (.pass hkind hs) hstops hf
    | stamp hstamp htaken => exact .upTo rfl (.stamp hstamp htaken hs) hstops hf

theorem covers_stampAll {fuel : Nat} {first : Bool} {s : Yaml.Stream}
    (hread : (s.valuesUpTo fuel first).ending = .ok ())
    (hds : ∀ d ∈ (s.valuesUpTo fuel first).values, IsDocument d) :
    ∃ sent, (stampAll chart o fuel first s).works c = sent.map .call ∧
      Covers c chart o (s.valuesUpTo fuel first).values ((stampAll chart o fuel first s).outcome c) sent := by
  induction fuel generalizing first s with
  | zero => exact ⟨[], rfl, .all .nil⟩
  | succ fuel ih =>
    rw [Yaml.Stream.valuesUpTo] at hread hds ⊢
    rw [stampAll, (Quiet.of _).works_bind, (Quiet.of _).outcome_bind, Action.works_of, Action.outcome_of,
      List.nil_append]
    cases hnext : s.nextValue? first with
    | error f =>
      rw [hnext] at hread
      cases hread
    | ok next =>
      cases next with
      | none => exact ⟨[], rfl, .all .nil⟩
      | some next =>
        obtain ⟨d, rest⟩ := next
        rw [hnext] at hread hds
        obtain ⟨hd, hrest⟩ := List.forall_mem_cons.1 hds
        obtain ⟨qs, hworks, hcourse⟩ := course_stampObject c chart o hd
        obtain ⟨sent, hsent, hcovers⟩ := ih hread hrest
        dsimp only
        rw [ok_bind, (quiet_stampObject ..).works_bind, (quiet_stampObject ..).outcome_bind, hworks]
        cases houtcome : (stampObject chart o d).outcome c with
        | ok u =>
          rw [houtcome] at hcourse
          exact ⟨qs ++ sent, by rw [hsent, List.map_append], hcovers.cons hcourse⟩
        | error f =>
          rw [houtcome] at hcourse
          cases hcourse with
          | stop hstops =>
            exact ⟨qs, List.append_nil _, @Covers.upTo c chart o _ [] _ d [] qs f rfl .nil hstops houtcome⟩

theorem covers_stampManifest {manifest : String} (hread : (Yaml.documentsOf manifest).ending = .ok ())
    (hds : ∀ d ∈ (Yaml.documentsOf manifest).values, IsDocument d) :
    ∃ sent, (stampManifest chart o manifest).works c = sent.map Entry.call ∧
      Covers c chart o (Yaml.documentsOf manifest).values ((stampManifest chart o manifest).outcome c) sent := by
  rw [← valuesUpTo_manifest] at hread hds ⊢
  exact covers_stampAll hread hds

/-- **What stamping covers.**  Once the manifest of a release is read, its documents, if each is empty or a
mapping, are covered in order, whatever the cluster answers. -/
theorem covers_stampRelease {manifest : String} (hmanifest : Answers c "get" (release o.name chart) manifest)
    (hread : (Yaml.documentsOf manifest).ending = .ok ())
    (hds : ∀ d ∈ (Yaml.documentsOf manifest).values, IsDocument d) :
    ∃ sent, (stampRelease cfg chart (release o.name chart) o).works c =
        .tool ⟨cfg.helmBinary, .manifest (release o.name chart) o.ns, none, cfg.helmTimeout⟩ ::
          sent.map .call ∧
      Covers c chart o (Yaml.documentsOf manifest).values
        ((stampRelease cfg chart (release o.name chart) o).outcome c) sent := by
  have hanswer : (runInstallTool cfg chart (.manifest (release o.name chart) o.ns) none).outcome c =
      .ok (.ok manifest) := outcome_runInstallTool_eq_ok.2 hmanifest
  obtain ⟨sent, hworks, hcovers⟩ := @covers_stampManifest c chart o manifest hread hds
  refine ⟨sent, ?_, ?_⟩
  · rw [stampRelease, (quiet_runInstallTool ..).works_bind, works_runInstallTool, hanswer]
    dsimp only
    rw [(Quiet.of _).works_bind, Action.outcome_of, Action.works_of]
    dsimp only
    rw [hworks]
    rfl
  · rw [stampRelease, (quiet_runInstallTool ..).outcome_bind, hanswer, ok_bind, (Quiet.of _).outcome_bind,
      Action.outcome_of]
    exact hcovers

end Chart

/-- A cluster that knows one kind, in namespaces under its first version and in none under its second. The manifest
of every release holds an empty document and an object of this kind under each of the two. -/
def Cluster.charted : Cluster :=
  { bare (.zero false) with kinds := ⟨answer⟩, replies := [("get", .ended 0 manifest "")] }
where
  /-- what the cluster says of a kind -/
  answer : (apiVersion kind : Data) → KindAnswer
    | .text "example.com/v1", .text "Gateway" => .known true
    | .text "example.com/v2", .text "Gateway" => .known false
    | _, kind => .unknown ("No matches found for " ++ kind.plainText)
  /-- the manifest -/
  manifest : String := "---\n---\napiVersion: example.com/v1\nkind: Gateway\nmetadata:\n  name: a\n" ++
    "---\napiVersion: example.com/v2\nkind: Gateway\nmetadata:\n  name: b\n"

open Chart in
/-- the stamping of such a release goes well, and sends two patches -/
theorem Cluster.covers_charted :
    let o : Owner := ⟨.text "default", .text "istio-system", .object [("name", .text "default")]⟩
    ∃ sent : List Request, sent.length = 2 ∧
      (stampRelease .standard "base" (release o.name "base") o).works charted =
        .tool ⟨"helm", .manifest "default-base" o.ns, none, .ofInt 300⟩ :: sent.map .call ∧
      Covers charted "base" o (Yaml.documentsOf charted.manifest).values (.ok ()) sent := by
  intro o
  have hdone : ((stampRelease .standard "base" (release o.name "base") o).outcome charted).isOk = true ∧
      ((stampRelease .standard "base" (release o.name "base") o).works charted).length = 3 := by
    decide +kernel
  have hdocuments : ((Yaml.documentsOf charted.manifest).ending).isOk = true ∧
      ∀ d ∈ (Yaml.documentsOf charted.manifest).values, IsDocument d := by
    decide +kernel
  obtain ⟨sent, hworks, hcovers⟩ := @covers_stampRelease .standard charted "base" o charted.manifest ⟨"", rfl⟩
    (eq_ok_of_isOk hdocuments.1) hdocuments.2
  rw [eq_ok_of_isOk hdone.1] at hcovers
  have hlength := hdone.2
  rw [hworks, List.length_cons, List.length_map] at hlength
  exact ⟨sent, Nat.succ.inj hlength, hworks, hcovers⟩

end MeshOperator
