import MeshOperator.Proofs.Watch.Routing

/-!
# The owner that an object names

Which revision an object belongs to is read off it in two ways. Annotations lead to a revision exactly if
they hold what is written on an object of this revision, whatever else they hold. Owner references lead to
the first of them that is the controlling one to a revision, whatever stands before and after it.

* `keyOfText?_eq_some_iff`: the texts that name a key.
* `Annotates`, `exists_ownerOfAnnotations?`: the revision that annotations name.
* `Controls`, `ownerOfReferences?_eq`: the revision that owner references name.
* `WatchedKind.owner?_exact`: the revision that an object of a watched kind leads to.
-/

namespace MeshOperator

open Data (lookup?)

/-! ### Texts that name a key -/

/-- A namespace and a name that can be told apart in a text with a slash between them: neither is empty, and
the namespace has no slash. -/
structure TellsApart (ns name : String) : Prop where
  ns_ne : ns ≠ ""
  noSlash : '/' ∉ ns.toList
  name_ne : name ≠ ""

theorem keyOfText?_eq_some_iff {s : String} {key : Key} : keyOfText? s = some key ↔
    ∃ ns name, TellsApart ns name ∧ key = ⟨.text ns, .text name⟩ ∧ s = key.text := by
  constructor
  · intro h
    unfold keyOfText? at h
    cases hcut : Text.cutFirst? '/' s.toList with
    | none =>
      rw [hcut] at h
      cases h
    | some parts =>
      obtain ⟨ns, name⟩ := parts
      obtain ⟨hs, hslash⟩ := Text.cutFirst?_eq_some_iff.1 hcut
      rw [hcut] at h
      dsimp only at h
      split at h
      · cases h
      · rename_i hparts
        cases h
        simp only [Bool.or_eq_true, List.isEmpty_iff, not_or] at hparts
        refine ⟨String.ofList ns, String.ofList name, ⟨?_, ?_, ?_⟩, rfl, ?_⟩
        · simpa [← String.toList_inj] using hparts.1
        · simpa using hslash
        · simpa [← String.toList_inj] using hparts.2
        · rw [← String.toList_inj, Key.toList_text, hs]
          simp
  · rintro ⟨ns, name, h, rfl, rfl⟩
    exact keyOfText?_text h.ns_ne h.noSlash h.name_ne

/-! ### Parts of an object -/

/-- Under a key of a mapping stands a mapping, null or nothing. -/
def MapsAt (key : String) (es : List (Data × Data)) : Prop :=
  ∀ d, lookup? key es = some d → d = .null ∨ ∃ fs, d = .dict fs

/-- the annotations of an object -/
def notesOf (object : Data) : List (Data × Data) :=
  ((lookup? "annotations" (aboutOf object)).getD .null).ownEntries

theorem MapsAt.lookup_getD {key : String} {es : List (Data × Data)} (h : MapsAt key es) :
    (lookup? key es).getD .null = .null ∨
      (lookup? key es).getD .null = .dict ((lookup? key es).getD .null).ownEntries := by
  cases hd : lookup? key es with
  | none => exact .inl rfl
  | some d =>
    rcases h d hd with rfl | ⟨fs, rfl⟩
    · exact .inl rfl
    · exact .inr rfl

theorem metadataOf_eq {object : Data} (hobject : ∃ es, object = .dict es)
    (h : MapsAt "metadata" object.ownEntries) : metadataOf object = .ok (.dict (aboutOf object)) := by
  obtain ⟨es, rfl⟩ := hobject
  have hes : (Data.dict es).ownEntries = es := rfl
  rw [metadataOf, Data.entryOrElse_dict, aboutOf, hes]
  rw [hes] at h
  rcases h.lookup_getD with hnull | hdict
  · rw [hnull]
    rfl
  · rw [hdict]
    generalize ((lookup? "metadata" es).getD .null).ownEntries = fs
    cases fs <;> rfl

/-! ### Annotations -/

/-- The annotations hold what is written on an object of a revision. -/
structure Annotates (notes : List (Data × Data)) (ns name : String) : Prop where
  key : TellsApart ns name
  written : ∀ mark v, lookup? mark (ownershipAnnotations (.text ns) (.text name)).ownEntries = some v →
    lookup? mark notes = some v

/-- An object with its annotations: what it has of metadata and of annotations are mappings, and the annotations
are texts. -/
structure IsAnnotated (object : Data) : Prop where
  mapping : ∃ es, object = .dict es
  about : MapsAt "metadata" object.ownEntries
  notes : MapsAt "annotations" (aboutOf object)
  texts : ∀ mark v, lookup? mark (notesOf object) = some v → ∃ s, v = .text s

variable {notes : List (Data × Data)} {object : Data}

theorem annotates_iff {ns name : String} : Annotates notes ns name ↔ TellsApart ns name ∧
    lookup? ownerMark notes = some (.text (Key.mk (.text ns) (.text name)).text) ∧
    lookup? ownerTypeMark notes = some (.text ownerType) := by
  have hmarks : ownerTypeMark ≠ ownerMark := by decide
  have hentries : (ownershipAnnotations (.text ns) (.text name)).ownEntries =
      [(.text ownerMark, .text (Key.mk (.text ns) (.text name)).text),
        (.text ownerTypeMark, .text ownerType)] := rfl
  have hmark : Data.text ownerMark ≠ .text ownerTypeMark := by simpa using hmarks.symm
  constructor
  · rintro ⟨hkey, hwritten⟩
    rw [hentries] at hwritten
    refine ⟨hkey, hwritten _ _ (Data.lookup?_cons_self ..), hwritten _ _ ?_⟩
    rw [Data.lookup?_cons_of_ne hmark, Data.lookup?_cons_self]
  · rintro ⟨hkey, hprimary, htype⟩
    refine ⟨hkey, fun mark v hv => ?_⟩
    rw [hentries] at hv
    by_cases hfirst : mark = ownerMark
    · rw [hfirst] at hv ⊢
      rw [Data.lookup?_cons_self] at hv
      rw [hprimary, hv]
    · have hne : Data.text ownerMark ≠ .text mark := by simpa using fun h => hfirst h.symm
      rw [Data.lookup?_cons_of_ne hne] at hv
      by_cases hsecond : mark = ownerTypeMark
      · rw [hsecond] at hv ⊢
        rw [Data.lookup?_cons_self] at hv
        rw [htype, hv]
      · have hne' : Data.text ownerTypeMark ≠ .text mark := by simpa using fun h => hsecond h.symm
        rw [Data.lookup?_cons_of_ne hne'] at hv
        cases hv

/-- the revision that annotations name, by their marks -/
theorem ownerOfAnnotations?_eq {primary type : String}
    (hprimary : (lookup? ownerMark notes).getD (.text "") = .text primary)
    (htype : (lookup? ownerTypeMark notes).getD (.text "") = .text type)
    (hobject : metadataOf object = .ok (.dict (aboutOf object)))
    (hnotes : MapsAt "annotations" (aboutOf object)) (heq : notesOf object = notes) :
    ownerOfAnnotations? object = .ok (if type = ownerType then keyOfText? primary else none) := by
  rw [ownerOfAnnotations?, hobject, ok_bind, Data.entry_dict, ok_bind]
  by_cases htruthy : ((lookup? "annotations" (aboutOf object)).getD .null).truthy = true
  · have hdict : (lookup? "annotations" (aboutOf object)).getD .null = .dict notes := by
      rcases hnotes.lookup_getD with hnull | hdict
      · rw [hnull] at htruthy
        cases htruthy
      · rw [hdict, ← notesOf, heq]
    rw [if_pos htruthy, hdict, ownerNote_dict hprimary htype, ok_bind]
    simp only [eq_ownerType_iff]
    rfl
  · -- without annotations there are no marks
    have hnone : notes = [] := by
      rw [← heq, notesOf]
      rcases hnotes.lookup_getD with hnull | hdict
      · rw [hnull]
        rfl
      · rw [hdict] at htruthy
        simpa [Data.truthy] using htruthy
    rw [hnone] at htype
    cases htype
    rw [if_neg htruthy, if_neg (by decide)]
    rfl

theorem exists_text_getD {es : List (Data × Data)} {key : String}
    (h : ∀ v, lookup? key es = some v → ∃ s, v = .text s) :
    ∃ s, (lookup? key es).getD (.text "") = .text s := by
  cases hv : lookup? key es with
  | none => exact ⟨"", rfl⟩
  | some v => exact h v hv

/-- a mark that is missing is the empty text -/
theorem getD_eq_text_iff {es : List (Data × Data)} {key s : String} (hs : s ≠ "") :
    (lookup? key es).getD (.text "") = .text s ↔ lookup? key es = some (.text s) := by
  cases lookup? key es with
  | none => simpa using hs.symm
  | some v => simp

/-- **Annotations.**  An object with annotations belongs to the revision whose marks they hold, and to none if
they hold those of none. -/
theorem exists_ownerOfAnnotations? (h : IsAnnotated object) :
    ∃ found, ownerOfAnnotations? object = .ok found ∧
      ∀ key, found = some key ↔
        ∃ ns name, key = ⟨.text ns, .text name⟩ ∧ Annotates (notesOf object) ns name := by
  obtain ⟨primary, hprimary⟩ := exists_text_getD (h.texts ownerMark)
  obtain ⟨type, htype⟩ := exists_text_getD (h.texts ownerTypeMark)
  refine ⟨_, ownerOfAnnotations?_eq hprimary htype (metadataOf_eq h.mapping h.about) h.notes rfl,
    fun key => ?_⟩
  have howner : ownerType ≠ "" := by decide
  have hkind : type = ownerType ↔ lookup? ownerTypeMark (notesOf object) = some (.text ownerType) := by
    rw [← getD_eq_text_iff howner, htype]
    simp
  have hmark (ns name : String) : lookup? ownerMark (notesOf object) =
      some (.text (Key.mk (.text ns) (.text name)).text) ↔
        primary = (Key.mk (.text ns) (.text name)).text := by
    have hne : (Key.mk (.text ns) (.text name)).text ≠ "" := by simp [Key.text, Data.plainText]
    rw [← getD_eq_text_iff hne, hprimary]
    simp
  simp only [annotates_iff, ← hkind, hmark]
  by_cases heq : type = ownerType
  · rw [if_pos heq, keyOfText?_eq_some_iff]
    constructor
    · rintro ⟨ns, name, hparts, rfl, hs⟩
      exact ⟨ns, name, rfl, hparts, hs, heq⟩
    · rintro ⟨ns, name, rfl, hparts, hs, -⟩
      exact ⟨ns, name, hparts, rfl, hs⟩
  · rw [if_neg heq]
    refine iff_of_false (Option.some_ne_none key).symm ?_
    rintro ⟨ns, name, -, -, -, htrue⟩
    exact heq htrue

/-! ### Owner references -/

/-- The reference is the controlling one to a revision, of whichever version. -/
structure Controls (ref : Data) : Prop where
  controller : ∃ d, lookup? "controller" ref.ownEntries = some d ∧ d.truthy = true
  kind : lookup? "kind" ref.ownEntries = some (.text revisionKind)
  version : ∃ v, '/' ∉ v.toList ∧
    lookup? "apiVersion" ref.ownEntries = some (.text (apiGroup ++ "/" ++ v))

/-- An owner reference: a mapping with a name, of which the version, if there is one, is a text. -/
structure IsReference (ref : Data) : Prop where
  mapping : ∃ es, ref = .dict es
  name : ∃ d, lookup? "name" ref.ownEntries = some d
  version : ∀ d, lookup? "apiVersion" ref.ownEntries = some d → ∃ s, d = .text s

theorem groupOf_eq_apiGroup_iff {version : String} :
    groupOf version = apiGroup ↔ ∃ v, '/' ∉ v.toList ∧ version = apiGroup ++ "/" ++ v := by
  constructor
  · intro h
    unfold groupOf at h
    cases hcut : Text.cutLast? '/' version.toList with
    | none =>
      rw [hcut] at h
      have hempty : "" ≠ apiGroup := by decide
      exact absurd h hempty
    | some parts =>
      obtain ⟨group, v⟩ := parts
      rw [hcut] at h
      obtain ⟨hversion, hslash⟩ := Text.cutLast?_eq_some_iff.1 hcut
      refine ⟨String.ofList v, by simpa using hslash, ?_⟩
      rw [← h, ← String.toList_inj, hversion]
      simp
  · rintro ⟨v, hslash, rfl⟩
    have hlist : (apiGroup ++ "/" ++ v).toList = apiGroup.toList ++ '/' :: v.toList := by simp
    rw [groupOf, hlist, Text.cutLast?_append hslash]
    simp

/-- it can be told of every reference whether it is the controlling one to a revision -/
theorem exists_isRevisionReference {ref : Data} (h : IsReference ref) :
    ∃ b, isRevisionReference ref = .ok b ∧ (b = true ↔ Controls ref) := by
  obtain ⟨⟨es, rfl⟩, -, hversion⟩ := h
  obtain ⟨version, hversion⟩ := exists_text_getD hversion
  have hcontroller : ((lookup? "controller" es).getD .null).truthy = true ↔
      ∃ d, lookup? "controller" es = some d ∧ d.truthy = true := by
    cases lookup? "controller" es <;> simp [Data.truthy, Scalar.truthy]
  have hkind : ((lookup? "kind" es).getD .null).same (.text revisionKind) = true ↔
      lookup? "kind" es = some (.text revisionKind) := by
    rw [Data.same_text]
    cases lookup? "kind" es <;> simp
  have hgroup : groupOf version = apiGroup ↔ ∃ v, '/' ∉ v.toList ∧
      lookup? "apiVersion" es = some (.text (apiGroup ++ "/" ++ v)) := by
    rw [groupOf_eq_apiGroup_iff]
    refine exists_congr fun v => and_congr_right fun _ => ?_
    have hne : apiGroup ++ "/" ++ v ≠ "" := by simp [apiGroup]
    rw [← getD_eq_text_iff hne]
    change version = _ ↔ (lookup? "apiVersion" (Data.dict es).ownEntries).getD (.text "") = _
    rw [hversion]
    simp
  have hread : isRevisionReference (.dict es) = .ok
      (if ((lookup? "controller" es).getD .null).truthy && ((lookup? "kind" es).getD .null).same
        (.text revisionKind) then decide (groupOf version = apiGroup) else false) := by
    change (lookup? "apiVersion" es).getD (.text "") = .text version at hversion
    rw [isRevisionReference, Data.entry_dict, ok_bind, Data.entry_dict, ok_bind, Data.entryOr_dict,
      hversion]
    split <;> rfl
  refine ⟨_, hread, ?_⟩
  simp only [Bool.and_eq_true, hcontroller, hkind, Bool.if_false_right, decide_eq_true_eq, hgroup]
  exact ⟨fun h => ⟨h.1.1, h.1.2, h.2⟩, fun h => ⟨⟨h.controller, h.kind⟩, h.version⟩⟩

section Refs

variable {ns : Data} {refs before after : List Data} {ref : Data}

theorem firstOwner?_cons_of_not (h : IsReference ref) (hnot : ¬ Controls ref) :
    firstOwner? ns (ref :: refs) = firstOwner? ns refs := by
  obtain ⟨b, hb, hcontrols⟩ := exists_isRevisionReference h
  rw [firstOwner?, hb, ok_bind, if_neg fun htrue => hnot (hcontrols.1 htrue)]

theorem firstOwner?_cons_of_controls (h : IsReference ref) (hcontrols : Controls ref) {name : Data}
    (hname : lookup? "name" ref.ownEntries = some name) :
    firstOwner? ns (ref :: refs) = .ok (some ⟨ns, name⟩) := by
  obtain ⟨b, hb, hiff⟩ := exists_isRevisionReference h
  obtain ⟨⟨es, rfl⟩, -, -⟩ := h
  change lookup? "name" es = some name at hname
  rw [firstOwner?, hb, ok_bind, if_pos (hiff.2 hcontrols), Data.required, hname]
  rfl

/-- references of which none is a controlling one to a revision are passed over -/
theorem firstOwner?_append (h : ∀ ref ∈ before, IsReference ref) (hnot : ∀ ref ∈ before, ¬ Controls ref) :
    firstOwner? ns (before ++ refs) = firstOwner? ns refs := by
  induction before with
  | nil => rfl
  | cons ref before ih =>
    obtain ⟨href, hrefs⟩ := List.forall_mem_cons.1 h
    obtain ⟨hnot, hnots⟩ := List.forall_mem_cons.1 hnot
    rw [List.cons_append, firstOwner?_cons_of_not href hnot, ih hrefs hnots]

end Refs

/-- An object in a namespace, which is the empty text where it has none, with its owner references. -/
structure IsReferred (object : Data) (ns : String) (refs : List Data) : Prop where
  mapping : ∃ es, object = .dict es
  about : MapsAt "metadata" object.ownEntries
  ns_eq : ((lookup? "namespace" (aboutOf object)).getD .null).orElse (.text "") = .text ns
  refs_eq : ((lookup? "ownerReferences" (aboutOf object)).getD .null).orElse (.list []) = .list refs
  each : ∀ ref ∈ refs, IsReference ref

variable {ns : String} {refs : List Data}

theorem ownerOfReferences?_eq (h : IsReferred object ns refs) :
    ownerOfReferences? object = if ns = "" then .ok none else firstOwner? (.text ns) refs := by
  obtain ⟨hobject, habout, hns, hrefs, -⟩ := h
  rw [ownerOfReferences?, metadataOf_eq hobject habout, ok_bind, Data.entry_dict, ok_bind,
    Data.entryOrElse_dict, ok_bind, hrefs, Data.members, ok_bind]
  by_cases htruthy : ((lookup? "namespace" (aboutOf object)).getD .null).truthy = true
  · rw [Data.orElse_of_truthy htruthy] at hns
    rw [hns] at htruthy ⊢
    have hne : ns ≠ "" := by simpa [Data.truthy, Scalar.truthy] using htruthy
    rw [if_pos htruthy, if_neg hne]
  · rw [Data.orElse, if_neg htruthy] at hns
    cases hns
    rw [if_neg htruthy, if_pos rfl]
    rfl

namespace WatchedKind

/-- **Exactness.**  An object without a namespace leads to the revision whose marks its annotations hold, and to
none if they hold those of none; they never hold those of two. An object in a namespace leads to the revision
that the first of its references names which is the controlling one to a revision, and to none if there is none. -/
theorem owner?_exact (k : WatchedKind) (object : Data) :
    (k.namespaced = false → IsAnnotated object →
      (∃ found, k.owner? object = .ok found ∧
        ∀ key, found = some key ↔
          ∃ ns name, key = ⟨.text ns, .text name⟩ ∧ Annotates (notesOf object) ns name) ∧
      ∀ ns name ns' name', Annotates (notesOf object) ns name → Annotates (notesOf object) ns' name' →
        ns = ns' ∧ name = name') ∧
    (k.namespaced = true → ∀ ns refs, IsReferred object ns refs →
      (ns = "" ∨ (∀ ref ∈ refs, ¬ Controls ref) → k.owner? object = .ok none) ∧
      ∀ before ref after name, ns ≠ "" → refs = before ++ ref :: after → (∀ r ∈ before, ¬ Controls r) →
        Controls ref → lookup? "name" ref.ownEntries = some name →
        k.owner? object = .ok (some ⟨.text ns, name⟩)) := by
  refine ⟨fun hk h => ?_, fun hk ns refs h => ?_⟩
  · rw [owner?, if_neg (by simp [hk])]
    obtain ⟨found, hfound, hiff⟩ := exists_ownerOfAnnotations? h
    refine ⟨⟨found, hfound, hiff⟩, fun ns name ns' name' hone hother => ?_⟩
    have hsame := ((hiff _).2 ⟨ns, name, rfl, hone⟩).symm.trans ((hiff _).2 ⟨ns', name', rfl, hother⟩)
    simpa using hsame
  · rw [owner?, if_pos hk, ownerOfReferences?_eq h]
    refine ⟨?_, fun before ref after name hns hrefs hbefore hcontrols hname => ?_⟩
    · rintro (hns | hnone)
      · rw [if_pos hns]
      · have hpassed := @firstOwner?_append (.text ns) [] refs h.each hnone
        rw [List.append_nil] at hpassed
        rw [hpassed, firstOwner?, ite_self]
    · subst hrefs
      obtain ⟨hbefore', hrest⟩ := List.forall_mem_append.1 h.each
      rw [if_neg hns, firstOwner?_append hbefore' hbefore]
      exact firstOwner?_cons_of_controls (hrest ref (List.mem_cons_self ..)) hcontrols hname

/-- a role without a namespace that belongs to a revision, among other notes -/
def markedReader : Data :=
  .object [("metadata", .object [("name", .text "reader"),
    ("annotations", .object [("note", .text "kept"), (ownerTypeMark, .text ownerType),
      (ownerMark, .text "istio-system/canary/a")])])]

/-- an owner reference -/
def referenceTo (apiVersion kind name : String) (controller : Bool) : Data :=
  .object [("apiVersion", .text apiVersion), ("kind", .text kind), ("name", .text name),
    ("controller", .bool controller)]

/-- the references of a role that other objects own too -/
def readerOwners : List Data := [
  referenceTo "operator.istio.io/v1alpha1" revisionKind "aside" false,
  referenceTo "operator.istio.io/v1/alpha" revisionKind "nested" true,
  referenceTo "operator.istio.io/v2" revisionKind "default" true,
  referenceTo "operator.istio.io/v2" revisionKind "late" true]

/-- this role -/
def sharedReader : Data :=
  .object [("metadata", .object [("name", .text "reader"), ("namespace", .text "istio-system"),
    ("ownerReferences", .list readerOwners)])]

theorem isAnnotated_markedReader : IsAnnotated markedReader where
  mapping := ⟨_, rfl⟩
  about := by
    intro d hd
    cases hd
    exact .inr ⟨_, rfl⟩
  notes := by
    intro d hd
    cases hd
    exact .inr ⟨_, rfl⟩
  texts := by
    intro mark v hv
    have hnotes : notesOf markedReader = [(.text "note", .text "kept"), (.text ownerTypeMark, .text ownerType),
      (.text ownerMark, .text "istio-system/canary/a")] := rfl
    have hmem := Data.mem_of_lookup? hv
    rw [hnotes] at hmem
    simp only [List.mem_cons, Prod.mk.injEq, List.not_mem_nil, or_false] at hmem
    rcases hmem with ⟨-, hv⟩ | ⟨-, hv⟩ | ⟨-, hv⟩ <;> exact ⟨_, hv⟩

theorem isReference_referenceTo (apiVersion kind name : String) (controller : Bool) :
    IsReference (referenceTo apiVersion kind name controller) where
  mapping := ⟨_, rfl⟩
  name := ⟨.text name, rfl⟩
  version := by
    intro d hd
    cases hd
    exact ⟨apiVersion, rfl⟩

theorem isReferred_sharedReader : IsReferred sharedReader "istio-system" readerOwners where
  mapping := ⟨_, rfl⟩
  about := by
    intro d hd
    cases hd
    exact .inr ⟨_, rfl⟩
  ns_eq := rfl
  refs_eq := rfl
  each := by simp [readerOwners, isReference_referenceTo]

theorem controls_referenceTo_iff {apiVersion kind name : String} {controller b : Bool}
    (hb : isRevisionReference (referenceTo apiVersion kind name controller) = .ok b) :
    Controls (referenceTo apiVersion kind name controller) ↔ b = true := by
  obtain ⟨b', hb', hiff⟩ := exists_isRevisionReference (isReference_referenceTo apiVersion kind name controller)
  cases hb.symm.trans hb'
  exact hiff.symm

/-- Both roles lead to the revisions that are written on them. -/
theorem owner?_readers :
    clusterRole.owner? markedReader = .ok (some ⟨.text "istio-system", .text "canary/a"⟩) ∧
    role.owner? sharedReader = .ok (some ⟨.text "istio-system", .text "default"⟩) := by
  constructor
  · obtain ⟨⟨found, hfound, hiff⟩, -⟩ := (owner?_exact clusterRole markedReader).1 rfl isAnnotated_markedReader
    rw [hfound, (hiff _).2 ⟨"istio-system", "canary/a", rfl, ?_⟩]
    exact annotates_iff.2 ⟨⟨by decide, by decide, by decide⟩, rfl, rfl⟩
  · have haside : isRevisionReference (referenceTo "operator.istio.io/v1alpha1" revisionKind "aside" false) =
        .ok false := rfl
    have hnested : isRevisionReference (referenceTo "operator.istio.io/v1/alpha" revisionKind "nested" true) =
        .ok false := rfl
    have hfound : isRevisionReference (referenceTo "operator.istio.io/v2" revisionKind "default" true) =
        .ok true := rfl
    refine ((owner?_exact role sharedReader).2 rfl _ _ isReferred_sharedReader).2
      (readerOwners.take 2) _ (readerOwners.drop 3) _ (by decide) rfl ?_
      ((controls_referenceTo_iff hfound).2 rfl) rfl
    simp [readerOwners, controls_referenceTo_iff haside, controls_referenceTo_iff hnested]

end WatchedKind

end MeshOperator
