import MeshOperator.Proofs.Data.Mappings
import MeshOperator.Proofs.Text.Occurrence
import MeshOperator.Proofs.Watch.Routing
import MeshOperator.Watch.WebhookFilter

/-!
# What an update has to change

Two versions of a webhook configuration that the control plane rewrites are compared without their churn: what
the cluster counts and records on every write, and the failure policies. What stands there never matters, and
everything else does, at any depth.

* `NamesValidator`: the names of the configurations that the control plane rewrites.
* `ButChurn`: configurations related in all but their churn.
* `isWebhookUpdate_exact`: the updates to react to.
-/

namespace MeshOperator

open Data (lookup? without withEntry IsOther AgreeBut HoldAlike AreEntries)

/-! ### Names -/

/-- The name holds `istio-validator`, or `istiod-` and later on the same line `-validator`. -/
def NamesValidator (name : String) : Prop :=
  (∃ a b, name.toList = a ++ "istio-validator".toList ++ b) ∨
    ∃ a between b, '\n' ∉ between ∧
      name.toList = a ++ "istiod-".toList ++ between ++ "-validator".toList ++ b

theorem anyTail_iff {p : List Char → Bool} {s : List Char} :
    anyTail p s = true ↔ ∃ a t, s = a ++ t ∧ p t = true := by
  induction s with
  | nil => simp [anyTail]
  | cons c s ih =>
    rw [anyTail, Bool.or_eq_true, ih]
    constructor
    · rintro (h | ⟨a, t, rfl, h⟩)
      · exact ⟨[], _, rfl, h⟩
      · exact ⟨c :: a, t, rfl, h⟩
    · rintro ⟨a, t, hs, h⟩
      cases a with
      | nil => exact .inl (by rwa [hs])
      | cons d a =>
        cases hs
        exact .inr ⟨a, t, rfl, h⟩

/-- a text without a line break occurs in the first line if it comes after a text without one -/
theorem infix_firstLine_iff {t s : List Char} (ht : '\n' ∉ t) :
    t <:+: s.takeWhile (· ≠ '\n') ↔ ∃ between b, '\n' ∉ between ∧ s = between ++ t ++ b := by
  constructor
  · rintro ⟨between, b, h⟩
    have hline : '\n' ∉ s.takeWhile (· ≠ '\n') := fun hmem => by
      simpa using List.all_eq_true.1 List.all_takeWhile _ hmem
    refine ⟨between, b ++ s.dropWhile (· ≠ '\n'), fun hmem => hline ?_, ?_⟩
    · rw [← h]
      simp [hmem]
    · rw [← List.append_assoc, h, List.takeWhile_append_dropWhile]
  · rintro ⟨between, b, hbetween, rfl⟩
    have hboth : ∀ c ∈ between ++ t, (fun c => decide (c ≠ '\n')) c = true := by
      intro c hc
      rcases List.mem_append.1 hc with h | h
      · simpa using fun he : c = '\n' => hbetween (he ▸ h)
      · simpa using fun he : c = '\n' => ht (he ▸ h)
    rw [List.takeWhile_append_of_pos hboth]
    exact ⟨between, _, rfl⟩

theorem isValidatorName_iff {name : String} : isValidatorName name = true ↔ NamesValidator name := by
  have hbreak : '\n' ∉ "-validator".toList := by decide
  rw [isValidatorName, Bool.or_eq_true, Text.occurs_iff, anyTail_iff]
  refine or_congr ⟨?_, ?_⟩ ⟨?_, ?_⟩
  · rintro ⟨a, b, h⟩
    exact ⟨a, b, h.symm⟩
  · rintro ⟨a, b, h⟩
    exact ⟨a, b, h.symm⟩
  · rintro ⟨a, t, hname, h⟩
    rw [Bool.and_eq_true, Text.startsWith_iff, Text.occurs_iff, infix_firstLine_iff hbreak] at h
    obtain ⟨⟨rest, rfl⟩, between, b, hbetween, hrest⟩ := h
    rw [List.drop_left] at hrest
    exact ⟨a, between, b, hbetween, by rw [hname, hrest]; simp only [List.append_assoc]⟩
  · rintro ⟨a, between, b, hbetween, hname⟩
    refine ⟨a, "istiod-".toList ++ (between ++ "-validator".toList ++ b), ?_, ?_⟩
    · rw [hname]
      simp only [List.append_assoc]
    · rw [Bool.and_eq_true, Text.startsWith_iff, Text.occurs_iff, infix_firstLine_iff hbreak, List.drop_left]
      exact ⟨List.prefix_append .., between, b, hbetween, rfl⟩

/-! ### Configurations -/

/-- A webhook configuration: its metadata, if there is any, is a mapping, and its webhooks, if there are any, are a
list of mappings. -/
structure IsConfiguration (d : Data) : Prop where
  mapping : ∃ es, d = .dict es
  entries : AreEntries d.ownEntries
  about : ∀ v, lookup? "metadata" d.ownEntries = some v → ∃ fs, v = .dict fs ∧ AreEntries fs
  webhooks : ∀ v, lookup? "webhooks" d.ownEntries = some v →
    v = .null ∨ ∃ ws, v = .list ws ∧ ∀ w ∈ ws, ∃ fs, w = .dict fs ∧ AreEntries fs

/-- Entries for webhooks that are related: there are none, or they are null, or they are lists of webhooks that
are related one by one. -/
inductive SameWebhooks (R : List (Data × Data) → List (Data × Data) → Prop) : Option Data → Option Data → Prop
  | absent : SameWebhooks R none none
  | null : SameWebhooks R (some .null) (some .null)
  | list {ws ws' : List Data} (each : List.Forall₂ (fun w w' => R w.ownEntries w'.ownEntries) ws ws') :
      SameWebhooks R (some (.list ws)) (some (.list ws'))

/-- Configurations of which all mappings are related but for their churn. -/
structure ButChurn (R : List String → List (Data × Data) → List (Data × Data) → Prop) (d e : Data) : Prop where
  about : R ["resourceVersion", "generation", "managedFields"] (aboutOf d) (aboutOf e)
  webhooks : SameWebhooks (R ["failurePolicy"]) (lookup? "webhooks" d.ownEntries) (lookup? "webhooks" e.ownEntries)
  others : R ["metadata", "webhooks"] d.ownEntries e.ownEntries

/-! ### Configurations without their churn -/

/-- entries without those under some texts -/
def withoutAll (keys : List String) (es : List (Data × Data)) : List (Data × Data) :=
  keys.foldl (fun es key => without key es) es

variable {keys : List String} {es fs : List (Data × Data)}

theorem mem_without {key : String} {e : Data × Data} : e ∈ without key es ↔ e ∈ es ∧ e.1 ≠ .text key := by
  obtain ⟨k, v⟩ := e
  rw [without, List.mem_filter]
  refine and_congr_right fun _ => ?_
  cases k with
  | scalar s => cases s <;> simp
  | _ => simp

theorem mem_withoutAll {e : Data × Data} : e ∈ withoutAll keys es ↔ e ∈ es ∧ IsOther keys e.1 := by
  induction keys generalizing es with
  | nil => simp [withoutAll, Data.isOther_nil]
  | cons key keys ih =>
    have hstep : withoutAll (key :: keys) es = withoutAll keys (without key es) := rfl
    rw [hstep, ih, mem_without, Data.isOther_cons_iff, and_assoc]

theorem withoutAll_sublist : (withoutAll keys es).Sublist es := by
  induction keys generalizing es with
  | nil => exact List.Sublist.refl es
  | cons key keys ih =>
    have hrest : (withoutAll keys (without key es)).Sublist (without key es) := ih
    exact hrest.trans List.filter_sublist

theorem holdAlike_withoutAll : HoldAlike keys (withoutAll keys es) es := fun e he => by
  rw [mem_withoutAll, and_iff_left he]

/-- what is equal without some entries agrees but for them -/
theorem same_withoutAll_iff (hes : AreEntries es) (hfs : AreEntries fs) :
    (Data.dict (withoutAll keys es)).same (.dict (withoutAll keys fs)) = true ↔ AgreeBut keys es fs := by
  have hwithout (fs : List (Data × Data)) : HoldAlike keys (withoutAll keys fs) fs := holdAlike_withoutAll
  rw [Data.same_dict_iff (hes.sublist withoutAll_sublist) (hfs.sublist withoutAll_sublist),
    ← Data.agreeBut_congr (hwithout es) (hwithout fs)]
  constructor
  · exact fun h =>
      ⟨fun e he _ => h.right e he (Data.isOther_nil _), fun f hf _ => h.left f hf (Data.isOther_nil _)⟩
  · exact fun h => ⟨fun e he _ => h.right e he (mem_withoutAll.1 he).2,
      fun f hf _ => h.left f hf (mem_withoutAll.1 hf).2⟩

/-- the metadata of a configuration without its churn -/
def bareAbout (d : Data) : Data := .dict (withoutAll recordFields (aboutOf d))

/-- the webhooks without their churn -/
def bareWebhooks : Data → Data
  | .list ws => .list (ws.map fun w => .dict (withoutAll ["failurePolicy"] w.ownEntries))
  | v => v

/-- A configuration without its churn is the same mapping but for its metadata and its webhooks. -/
structure IsBare (d : Data) (es : List (Data × Data)) : Prop where
  entries : AreEntries es
  about : lookup? "metadata" es = some (bareAbout d)
  webhooks : lookup? "webhooks" es = (lookup? "webhooks" d.ownEntries).map bareWebhooks
  others : HoldAlike ["metadata", "webhooks"] es d.ownEntries

/-- the webhooks of a configuration -/
def webhooksOf (d : Data) : List Data :=
  match lookup? "webhooks" d.ownEntries with
  | some (.list ws) => ws
  | _ => []

theorem dropping_about {d : Data} (h : IsConfiguration d) :
    ((lookup? "metadata" d.ownEntries).getD (.dict [])).dropping recordFields = .ok (bareAbout d) := by
  cases hv : lookup? "metadata" d.ownEntries with
  | none =>
    rw [bareAbout, aboutOf, hv]
    rfl
  | some v =>
    obtain ⟨fs, rfl, -⟩ := h.about v hv
    rw [bareAbout, aboutOf, hv]
    rfl

theorem mapM_dropping (keys : List String) {ws : List Data} (h : ∀ w ∈ ws, ∃ fs, w = .dict fs) :
    ws.mapM (Data.dropping keys) = .ok (ws.map fun w => .dict (withoutAll keys w.ownEntries)) := by
  induction ws with
  | nil => rfl
  | cons w ws ih =>
    obtain ⟨⟨fs, rfl⟩, hrest⟩ := List.forall_mem_cons.1 h
    rw [List.mapM_cons, ih hrest]
    rfl

/-- what stands under `webhooks`, in a configuration -/
theorem lookup?_webhooks {d : Data} (h : IsConfiguration d) :
    (lookup? "webhooks" d.ownEntries = none ∨ lookup? "webhooks" d.ownEntries = some .null) ∧ webhooksOf d = [] ∨
      lookup? "webhooks" d.ownEntries = some (.list (webhooksOf d)) := by
  unfold webhooksOf
  cases hv : lookup? "webhooks" d.ownEntries with
  | none => exact .inl ⟨.inl rfl, rfl⟩
  | some v =>
    rcases h.webhooks v hv with rfl | ⟨ws, rfl, -⟩
    · exact .inl ⟨.inr rfl, rfl⟩
    · exact .inr rfl

theorem members_webhooks {d : Data} (h : IsConfiguration d) :
    (((lookup? "webhooks" d.ownEntries).getD .null).orElse (.list [])).members = .ok (webhooksOf d) := by
  rcases lookup?_webhooks h with ⟨hnone | hnull, hempty⟩ | hlist
  · rw [hnone, hempty]
    rfl
  · rw [hnull, hempty]
    rfl
  · rw [hlist]
    cases webhooksOf d <;> rfl

theorem exists_webhook {d w : Data} (h : IsConfiguration d) (hw : w ∈ webhooksOf d) :
    ∃ fs, w = .dict fs ∧ AreEntries fs := by
  rcases lookup?_webhooks h with ⟨-, hempty⟩ | hlist
  · rw [hempty] at hw
    cases hw
  · rcases h.webhooks _ hlist with hnull | ⟨ws, heq, heach⟩
    · cases hnull
    · cases heq
      exact heach w hw

/-- the entries of a configuration whose metadata has no churn -/
def withBareAbout (d : Data) : List (Data × Data) := withEntry "metadata" (bareAbout d) d.ownEntries

theorem lookup?_withBareAbout {d : Data} :
    lookup? "webhooks" (withBareAbout d) = lookup? "webhooks" d.ownEntries :=
  Data.lookup?_withEntry_of_ne (by decide) ..

theorem withoutChurn_eq {d : Data} (h : IsConfiguration d) : withoutChurn d =
    .ok (.dict (if (webhooksOf d).isEmpty then withBareAbout d
      else withEntry "webhooks" (bareWebhooks (.list (webhooksOf d))) (withBareAbout d))) := by
  obtain ⟨es, hd⟩ := h.mapping
  have hentries : d.entries = .ok d.ownEntries := by
    rw [hd]
    rfl
  have hdrop := mapM_dropping ["failurePolicy"] fun w hw => (exists_webhook h hw).imp fun _ => And.left
  rw [withoutChurn, hentries, ok_bind, dropping_about h, ok_bind, ← withBareAbout]
  dsimp only
  rw [lookup?_withBareAbout, members_webhooks h, ok_bind, hdrop, ok_bind, List.isEmpty_map]
  rfl

theorem exists_withoutChurn {d : Data} (h : IsConfiguration d) :
    ∃ es, withoutChurn d = .ok (.dict es) ∧ IsBare d es := by
  have habout : lookup? "metadata" (withBareAbout d) = some (bareAbout d) := Data.lookup?_withEntry ..
  have hothers : HoldAlike ["metadata", "webhooks"] (withBareAbout d) d.ownEntries :=
    Data.holdAlike_withEntry (by decide)
  refine ⟨_, withoutChurn_eq h, ?_⟩
  by_cases hempty : webhooksOf d = []
  · -- null and an empty list stay as they are
    rw [if_pos (by rw [hempty]; rfl)]
    refine ⟨h.entries.withEntry, habout, ?_, hothers⟩
    rw [lookup?_withBareAbout]
    rcases lookup?_webhooks h with ⟨hnone | hnull, -⟩ | hlist
    · rw [hnone]
      rfl
    · rw [hnull]
      rfl
    · rw [hlist, hempty]
      rfl
  · rw [if_neg (by simpa using hempty)]
    refine ⟨h.entries.withEntry.withEntry, ?_, ?_, (Data.holdAlike_withEntry (by decide)).trans hothers⟩
    · rw [Data.lookup?_withEntry_of_ne (by decide), habout]
    · rcases lookup?_webhooks h with ⟨-, hnone⟩ | hlist
      · exact absurd hnone hempty
      · rw [Data.lookup?_withEntry, hlist]
        rfl

/-! ### Comparing configurations -/

variable {d e : Data}

theorem areEntries_aboutOf (h : IsConfiguration d) : AreEntries (aboutOf d) := by
  rw [aboutOf]
  cases hv : lookup? "metadata" d.ownEntries with
  | none => exact Data.areEntries_nil
  | some v =>
    obtain ⟨fs, rfl, hfs⟩ := h.about v hv
    exact hfs

/-- data that can stand under `webhooks` in a configuration -/
def AreWebhooks (v : Data) : Prop :=
  v = .null ∨ ∃ ws, v = .list ws ∧ ∀ w ∈ ws, ∃ fs, w = .dict fs ∧ AreEntries fs

theorem same_bareList_iff {ws ws' : List Data} (h : ∀ w ∈ ws, ∃ fs, w = .dict fs ∧ AreEntries fs)
    (h' : ∀ w ∈ ws', ∃ fs, w = .dict fs ∧ AreEntries fs) :
    (bareWebhooks (.list ws)).same (bareWebhooks (.list ws')) = true ↔
      List.Forall₂ (fun w w' => AgreeBut ["failurePolicy"] w.ownEntries w'.ownEntries) ws ws' := by
  rw [bareWebhooks, bareWebhooks, Data.same, Data.sameTests_eq, Data.testsHold_map_iff,
    List.forall₂_map_left_iff, List.forall₂_map_right_iff]
  induction ws generalizing ws' with
  | nil => cases ws' <;> simp
  | cons w ws ih =>
    cases ws' with
    | nil => simp
    | cons w' ws' =>
      obtain ⟨⟨fs, rfl, hfs⟩, hrest⟩ := List.forall_mem_cons.1 h
      obtain ⟨⟨fs', rfl, hfs'⟩, hrest'⟩ := List.forall_mem_cons.1 h'
      rw [List.forall₂_cons, List.forall₂_cons, ih hrest hrest', Data.ownEntries, Data.ownEntries,
        same_withoutAll_iff hfs hfs']

theorem same_bareWebhooks_iff {o p : Option Data} (ho : ∀ v, o = some v → AreWebhooks v)
    (hp : ∀ v, p = some v → AreWebhooks v) :
    Option.Rel (fun a b => a.same b = true) (o.map bareWebhooks) (p.map bareWebhooks) ↔
      SameWebhooks (AgreeBut ["failurePolicy"]) o p := by
  constructor
  · intro h
    cases o with
    | none =>
      cases p with
      | none => exact .absent
      | some w => cases h
    | some v =>
      cases p with
      | none => cases h
      | some w =>
        cases h with
        | some hsame =>
          rcases ho v rfl with rfl | ⟨ws, rfl, hws⟩ <;> rcases hp w rfl with rfl | ⟨ws', rfl, hws'⟩
          · exact .null
          · simp [bareWebhooks, Data.same] at hsame
          · simp [bareWebhooks, Data.same] at hsame
          · exact .list ((same_bareList_iff hws hws').1 hsame)
  · intro h
    cases h with
    | absent => exact .none
    | null => exact .some rfl
    | list each =>
      rcases ho _ rfl with hnull | ⟨ws, hws, heach⟩
      · cases hnull
      · rcases hp _ rfl with hnull | ⟨ws', hws', heach'⟩
        · cases hnull
        · cases hws
          cases hws'
          exact .some ((same_bareList_iff heach heach').2 each)

theorem same_withoutChurn_iff {es fs : List (Data × Data)} (hd : IsConfiguration d) (he : IsConfiguration e)
    (hes : IsBare d es) (hfs : IsBare e fs) : (Data.dict es).same (.dict fs) = true ↔ ButChurn AgreeBut d e := by
  have hwebhooks : "webhooks" ∉ ([] : List String) := List.not_mem_nil
  have habout : "metadata" ∉ ["webhooks"] := by decide
  rw [Data.same_dict_iff hes.entries hfs.entries, Data.agreeBut_cons_iff hes.entries hfs.entries hwebhooks,
    Data.agreeBut_cons_iff hes.entries hfs.entries habout, Data.agreeBut_congr hes.others hfs.others,
    hes.about, hfs.about, hes.webhooks, hfs.webhooks, same_bareWebhooks_iff hd.webhooks he.webhooks, bareAbout,
    bareAbout, Option.rel_some_some, same_withoutAll_iff (areEntries_aboutOf hd) (areEntries_aboutOf he)]
  exact ⟨fun h => ⟨h.1.2, h.2, h.1.1⟩, fun h => ⟨⟨h.others, h.about⟩, h.webhooks⟩⟩

theorem IsConfiguration.isNull (h : IsConfiguration d) : d.isNull = false := by
  obtain ⟨es, rfl⟩ := h.mapping
  rfl

theorem isWebhookUpdate_of_names {name : String} (hname : NamesValidator name) (hd : IsConfiguration d)
    (he : IsConfiguration e) :
    ∃ b, isWebhookUpdate name d e = .ok b ∧ (b = false ↔ ButChurn AgreeBut d e) := by
  obtain ⟨es, hread, hes⟩ := exists_withoutChurn hd
  obtain ⟨fs, hread', hfs⟩ := exists_withoutChurn he
  refine ⟨!(Data.dict es).same (.dict fs), ?_, ?_⟩
  · rw [isWebhookUpdate, if_neg (by simp [hd.isNull, he.isNull]), if_pos (isValidatorName_iff.2 hname), hread,
      hread']
    rfl
  · rw [Bool.not_eq_false', same_withoutChurn_iff hd he hes hfs]

theorem isWebhookUpdate_of_not_names {name : String} (hname : ¬ NamesValidator name) (hd : IsConfiguration d)
    (he : IsConfiguration e) : isWebhookUpdate name d e = .ok true := by
  rw [isWebhookUpdate, if_neg (by simp [hd.isNull, he.isNull]), if_neg (by rwa [isValidatorName_iff])]

/-! ### Changes of the churn alone -/

theorem SameWebhooks.symm {o p : Option Data} (h : SameWebhooks (HoldAlike keys) o p) :
    SameWebhooks (HoldAlike keys) p o := by
  cases h with
  | absent => exact .absent
  | null => exact .null
  | list each => exact .list (each.flip.imp fun _ _ h => Data.HoldAlike.symm h)

theorem ButChurn.symm (h : ButChurn HoldAlike d e) : ButChurn HoldAlike e d :=
  ⟨h.about.symm, h.webhooks.symm, h.others.symm⟩

theorem SameWebhooks.of_holdAlike {o o' p p' : Option Data} (h : SameWebhooks (AgreeBut keys) o p)
    (ho : SameWebhooks (HoldAlike keys) o o') (hp : SameWebhooks (HoldAlike keys) p p') :
    SameWebhooks (AgreeBut keys) o' p' := by
  cases h with
  | absent =>
    cases ho
    cases hp
    exact .absent
  | null =>
    cases ho
    cases hp
    exact .null
  | @list ws us each =>
    cases ho with
    | @list ws ws' hws =>
      cases hp with
      | @list us us' hus =>
        refine .list ?_
        induction each generalizing ws' us' with
        | nil =>
          cases hws
          cases hus
          exact .nil
        | cons hfirst _ ih =>
          cases hws with
          | cons hw hws =>
            cases hus with
            | cons hu hus => exact .cons (hfirst.of_holdAlike hw hu) (ih hws hus)

theorem ButChurn.of_holdAlike {d' e' : Data} (h : ButChurn AgreeBut d e) (hd : ButChurn HoldAlike d d')
    (he : ButChurn HoldAlike e e') : ButChurn AgreeBut d' e' :=
  ⟨h.about.of_holdAlike hd.about he.about, h.webhooks.of_holdAlike hd.webhooks he.webhooks,
    h.others.of_holdAlike hd.others he.others⟩

/-- **Exactness.**  An update of a configuration that the control plane does not rewrite is always one to react to.
An update of one that it rewrites is not, exactly if the configurations agree but for their churn. So the answer is
the same whatever churn either of them has. The fields are taken out of values and not out of places, so both
configurations are afterwards what they were: there is no copy that could share a part with them. -/
theorem isWebhookUpdate_exact (name : String) (old new : Data) (hold : IsConfiguration old)
    (hnew : IsConfiguration new) :
    (¬ NamesValidator name → isWebhookUpdate name old new = .ok true) ∧
    (NamesValidator name →
      ∃ b, isWebhookUpdate name old new = .ok b ∧ (b = false ↔ ButChurn AgreeBut old new)) ∧
    ∀ old' new', IsConfiguration old' → IsConfiguration new' → ButChurn HoldAlike old old' →
      ButChurn HoldAlike new new' → isWebhookUpdate name old' new' = isWebhookUpdate name old new := by
  refine ⟨fun hname => isWebhookUpdate_of_not_names hname hold hnew,
    fun hname => isWebhookUpdate_of_names hname hold hnew, fun old' new' hold' hnew' hchurn hchurn' => ?_⟩
  by_cases hname : NamesValidator name
  · obtain ⟨b, hb, hiff⟩ := isWebhookUpdate_of_names hname hold hnew
    obtain ⟨b', hb', hiff'⟩ := isWebhookUpdate_of_names hname hold' hnew'
    have hsame : ButChurn AgreeBut old' new' ↔ ButChurn AgreeBut old new :=
      ⟨fun h => h.of_holdAlike hchurn.symm hchurn'.symm, fun h => h.of_holdAlike hchurn hchurn'⟩
    have hbool : b' = false ↔ b = false := by rw [hiff, hiff', hsame]
    have heq : b' = b := by cases b <;> cases b' <;> simp at hbool ⊢
    rw [hb, hb', heq]
  · rw [isWebhookUpdate_of_not_names hname hold hnew, isWebhookUpdate_of_not_names hname hold' hnew']

/-- a configuration of one webhook, in its `generation`-th version -/
def sampleConfiguration (generation : Int) (policy : String) : Data := .object
  [("metadata", .object [("name", .text "istiod-istio-system-validator"), ("generation", .int generation)]),
    ("webhooks", .list [.object [("name", .text "validation.istio.io"), ("failurePolicy", .text policy)]])]

theorem isConfiguration_sample (generation : Int) (policy : String) :
    IsConfiguration (sampleConfiguration generation policy) := by
  refine ⟨⟨_, rfl⟩, Data.areEntries_object (by simp), ?_, ?_⟩
  · intro v hv
    cases hv
    exact ⟨_, rfl, Data.areEntries_object (by simp)⟩
  · intro v hv
    cases hv
    refine .inr ⟨_, rfl, ?_⟩
    rintro w hw
    cases List.mem_singleton.1 hw
    exact ⟨_, rfl, Data.areEntries_object (by simp)⟩

/-- the control plane makes the policy stricter -/
theorem isWebhookUpdate_policy :
    isWebhookUpdate "istiod-istio-system-validator" (sampleConfiguration 1 "Ignore")
        (sampleConfiguration 2 "Fail") = .ok false ∧
      ButChurn AgreeBut (sampleConfiguration 1 "Ignore") (sampleConfiguration 2 "Fail") := by
  have hname : NamesValidator "istiod-istio-system-validator" :=
    .inr ⟨[], "istio-system".toList, [], by decide, by decide⟩
  have hread : isWebhookUpdate "istiod-istio-system-validator" (sampleConfiguration 1 "Ignore")
      (sampleConfiguration 2 "Fail") = .ok false := rfl
  obtain ⟨b, hb, hiff⟩ := (isWebhookUpdate_exact "istiod-istio-system-validator" (sampleConfiguration 1 "Ignore")
    (sampleConfiguration 2 "Fail") (isConfiguration_sample ..) (isConfiguration_sample ..)).2.1 hname
  cases hb.symm.trans hread
  exact ⟨hread, hiff.1 rfl⟩

end MeshOperator
