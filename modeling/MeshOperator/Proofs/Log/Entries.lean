import MeshOperator.Log.Logger
import MeshOperator.Proofs.Json.ReadBack

/-!
# What a log line is made of

A call that is accepted leaves a record, and the entries of its line are those that every line has, with the fields
of the call put over them and, where it asks for one, the text of an exception put over these.

* `Call.IsPlain`: calls with data of JSON for their fields, at a time that the clock shows.
* `Call.entries`, `Call.lookup?_entries`: the entries of a line.
* `Call.lines_eq_ok`, `Call.entries_record`: the line of a call is that of these entries.
-/

namespace MeshOperator.Log

/-- A call to a log: with the time, the text of the exception that is being handled, and the threshold in force. -/
structure Call where
  log : String
  created : Double
  trouble : String
  threshold : Int
  level : Level
  message : String
  fields : List (String × Data)

namespace Call

variable (c : Call)

/-- the lines that a call leaves -/
def lines : Except Fault (List String) :=
  Log.lines c.log c.created c.trouble c.threshold c.level c.message c.fields

/-- The clock shows a time, the level reaches the threshold, and each field is given once, with data of JSON. -/
structure IsPlain (time : String) : Prop where
  clock : ∃ t, ClockTime.ofDouble c.created = .ok t ∧ t.logText = .ok time
  reaches : c.threshold ≤ c.level.number
  names : (c.fields.map Prod.fst).Nodup
  values : ∀ f ∈ c.fields, f.2.IsJson

/-- the fields to be shown: those that are not null, but for the one that asks for an exception -/
def shown : List (String × Data) := (c.fields.filter fun f => f.1 ≠ "exc_info").filter fun f => !f.2.isNull

/-- whether the call asks for an exception -/
def asksTrouble : Bool := c.fields.any fun f => f.1 = "exc_info" && f.2.truthy

/-- the text of an exception stands over the field -/
def Covers (f : String × Data) : Prop := c.asksTrouble = true ∧ f.1 = "exception"

/-- what every line tells of its record -/
def standard (time : String) : List (String × Data) :=
  [("timestamp", .text time), ("level", .text (levelName c.level.number)), ("logger", .text (logName c.log)),
    ("message", .text c.message)]

/-- the shown fields that say what the call is about -/
def about : List (String × Data) := aboutFields.filterMap fun k => (c.shown.lookup k).map fun d => (k, d)

/-- the other shown fields -/
def others : List (String × Data) := c.shown.filter fun f => !aboutFields.contains f.1

/-- what stands in a line before anything is put in a place -/
def start (time : String) : List (Data × Data) := (c.standard time ++ c.about).map fun e => (.text e.1, e.2)

/-- the entries of the line -/
def entries (time : String) : List (Data × Data) :=
  let all := Data.putAll (c.start time) c.others
  if c.asksTrouble then Data.withEntry "exception" (.text c.trouble) all else all

/-! ### The entries -/

section Entries

variable {c} {time key : String} {v : Data} {f : String × Data}

theorem IsPlain.nodup_shown (h : c.IsPlain time) : (c.shown.map Prod.fst).Nodup :=
  h.names.sublist ((List.filter_sublist.trans List.filter_sublist).map _)

theorem forall_mem_standard {P : String × Data → Prop} : (∀ f ∈ c.standard time, P f) ↔
    P ("timestamp", .text time) ∧ P ("level", .text (levelName c.level.number)) ∧
      P ("logger", .text (logName c.log)) ∧ P ("message", .text c.message) := by
  simp [standard]

theorem nodup_standard (c : Call) (time : String) : ((c.standard time).map Prod.fst).Nodup := by
  change ["timestamp", "level", "logger", "message"].Nodup
  decide

theorem mem_fields_of_shown (hf : f ∈ c.shown) : f ∈ c.fields := List.mem_of_mem_filter (List.mem_of_mem_filter hf)

theorem lookup_filter (p : String → Bool) (fs : List (String × Data)) :
    (fs.filter fun f => p f.1).lookup key = if p key then fs.lookup key else none := by
  induction fs with
  | nil => simp
  | cons f fs ih =>
    obtain ⟨k, d⟩ := f
    rw [List.filter_cons, List.lookup_cons]
    by_cases hkey : key = k
    · subst hkey
      cases hp : p key <;> simp [hp, ih]
    · rw [beq_eq_false_iff_ne.2 hkey]
      cases hp : p k
      · exact ih
      · rw [if_pos rfl, List.lookup_cons, beq_eq_false_iff_ne.2 hkey]
        exact ih

/-- the values that are there for some names, under these names -/
theorem lookup_filterMap (g : String → Option Data) (ks : List String) :
    (ks.filterMap fun k => (g k).map fun d => (k, d)).lookup key = if key ∈ ks then g key else none := by
  induction ks with
  | nil => simp
  | cons k ks ih =>
    by_cases hkey : key = k
    · subst hkey
      cases hg : g key with
      | none => simp [hg, ih]
      | some d => simp [hg]
    · have hne : (key == k) = false := beq_eq_false_iff_ne.2 hkey
      cases hg : g k with
      | none => simp [hg, ih, hkey]
      | some d => simp [hg, List.lookup_cons, hne, ih, hkey]

theorem map_fst_filterMap (g : String → Option Data) (ks : List String) :
    (ks.filterMap fun k => (g k).map fun d => (k, d)).map Prod.fst = ks.filter fun k => (g k).isSome := by
  induction ks with
  | nil => rfl
  | cons k ks ih => cases hg : g k <;> simp [hg, ih]

theorem areFields_start (c : Call) (time : String) : Data.AreFields (c.start time) := by
  have hall : (["timestamp", "level", "logger", "message"] ++ aboutFields).Nodup := by decide
  refine Data.areFields_object (hall.sublist ?_)
  rw [List.map_append, about, map_fst_filterMap]
  exact List.filter_sublist.append_left _

theorem areFields_entries (c : Call) (time : String) : Data.AreFields (c.entries time) := by
  unfold entries
  dsimp only
  split
  · exact ((c.areFields_start time).putAll _).withEntry
  · exact (c.areFields_start time).putAll _

/-- The text of an exception stands over a field, and a field over what every line has. -/
theorem lookup?_entries (h : c.IsPlain time) (key : String) : Data.lookup? key (c.entries time) =
    if c.asksTrouble = true ∧ key = "exception" then some (.text c.trouble)
    else (c.shown.lookup key).or ((c.standard time).lookup key) := by
  have hnodup : (c.others.map Prod.fst).Nodup := h.nodup_shown.sublist (List.filter_sublist.map _)
  have hstart : Data.lookup? key (c.start time) = ((c.standard time).lookup key).or (c.about.lookup key) := by
    rw [start, Data.lookup?_object, List.lookup_append]
  have hall : Data.lookup? key (Data.putAll (c.start time) c.others) =
      (c.shown.lookup key).or ((c.standard time).lookup key) := by
    rw [Data.lookup?_putAll hnodup, hstart, others, lookup_filter (fun k => !aboutFields.contains k), about,
      lookup_filterMap]
    by_cases hkey : key ∈ aboutFields
    · -- no line has a name of what it is about of its own
      have hstandard : (c.standard time).lookup key = none := by
        have hdisjoint : ∀ k ∈ aboutFields, ∀ n ∈ ["timestamp", "level", "logger", "message"], k ≠ n := by decide
        refine List.lookup_eq_none_iff.2 fun f hf => bne_iff_ne.2 (hdisjoint key hkey f.1 ?_)
        exact List.mem_map_of_mem (f := Prod.fst) hf
      simp [hkey, hstandard]
    · simp [hkey]
  unfold entries
  dsimp only
  split_ifs with htrouble hboth hboth
  · rw [hboth.2, Data.lookup?_withEntry]
  · rw [Data.lookup?_withEntry_of_ne (fun heq => hboth ⟨htrouble, heq⟩), hall]
  · exact absurd hboth.1 htrouble
  · exact hall

/-- each entry is one of these -/
theorem mem_entries (h : c.IsPlain time) {e : Data × Data} (he : e ∈ c.entries time) : ∃ k, e.1 = .text k ∧
    (c.Covers (k, e.2) ∧ e.2 = .text c.trouble ∨ (k, e.2) ∈ c.shown ∧ ¬ c.Covers (k, e.2) ∨
      (k, e.2) ∈ c.standard time) := by
  obtain ⟨k, hk⟩ := (c.areFields_entries time).named e he
  have hlookup : Data.lookup? k (c.entries time) = some e.2 :=
    (c.areFields_entries time).lookup?_eq_some_iff.2 (hk ▸ he)
  rw [lookup?_entries h] at hlookup
  refine ⟨k, hk, ?_⟩
  split_ifs at hlookup with hboth
  · exact .inl ⟨hboth, (Option.some.inj hlookup).symm⟩
  · rcases Option.or_eq_some_iff.1 hlookup with hshown | ⟨-, hstandard⟩
    · exact .inr (.inl ⟨(Data.lookup_eq_some_iff h.nodup_shown).1 hshown, hboth⟩)
    · exact .inr (.inr ((Data.lookup_eq_some_iff (c.nodup_standard time)).1 hstandard))

theorem isJson_entries (h : c.IsPlain time) : (Data.dict (c.entries time)).IsJson := by
  refine .dict (c.areFields_entries time) fun e he => ?_
  obtain ⟨k, -, ⟨-, hvalue⟩ | ⟨hshown, -⟩ | hstandard⟩ := mem_entries h he
  · rw [hvalue]
    exact .text _
  · exact h.values _ (mem_fields_of_shown hshown)
  · have htext : ∀ f ∈ c.standard time, ∃ s, f.2 = .text s :=
      forall_mem_standard.2 ⟨⟨_, rfl⟩, ⟨_, rfl⟩, ⟨_, rfl⟩, ⟨_, rfl⟩⟩
    obtain ⟨s, hs⟩ := htext _ hstandard
    rw [show e.2 = .text s from hs]
    exact .text s

/-! ### The record -/

/-- the record that an accepted call leaves -/
def record (c : Call) : Record :=
  { recordOf (logName c.log) c.created c.level c.message (c.fields.filter fun f => f.1 ≠ "exc_info") with
    report := some (if c.asksTrouble then .text c.trouble else .data .null) }

/-- A call is accepted if no field has the name of a parameter, and none that is shown that of what every record
has. Then it leaves the line of its record, if there is one. -/
theorem lines_eq_ok (h : c.threshold ≤ c.level.number) {ls : List String} (hok : c.lines = .ok ls) :
    (∀ f ∈ c.fields, f.1 ∉ parameterNames) ∧ ls = c.record.line.toOption.toList := by
  obtain ⟨r, hr, hlines⟩ := bind_eq_ok.1 hok
  unfold writeTo at hr
  split_ifs at hr with hnames hlow
  · exact absurd h (not_le.2 hlow)
  · rw [List.any_eq_true] at hnames
    refine ⟨fun f hf hmem => hnames ⟨f, hf, List.contains_iff_mem.2 hmem⟩, ?_⟩
    dsimp only at hr
    split at hr
    · cases hr
    · cases hr
      cases hlines
      have hrecord : (if c.asksTrouble then
          { recordOf (logName c.log) c.created c.level c.message (c.fields.filter fun f => f.1 ≠ "exc_info") with
            report := some (.text c.trouble) }
          else recordOf (logName c.log) c.created c.level c.message (c.fields.filter fun f => f.1 ≠ "exc_info")) =
          c.record := by
        unfold record
        cases c.asksTrouble <;> rfl
      exact congrArg (fun r : Record => r.line.toOption.toList) hrecord

theorem foldl_without (ks : List String) (fs : List (String × Data)) :
    ks.foldl (fun es k => Data.without k es) (fs.map fun f => (.text f.1, f.2)) =
      (fs.filter fun f => !ks.contains f.1).map fun f => (.text f.1, f.2) := by
  induction ks generalizing fs with
  | nil => simp
  | cons k ks ih =>
    have hwithout : Data.without k (fs.map fun f => (.text f.1, f.2)) =
        (fs.filter fun f => f.1 ≠ k).map fun f => (.text f.1, f.2) := by
      rw [Data.without, List.filter_map]
      rfl
    rw [List.foldl_cons, hwithout, ih, List.filter_filter]
    congr 2
    funext f
    by_cases hf : f.1 = k <;> simp [hf]

theorem entries_record (h : c.IsPlain time) : c.record.entries =
    if (c.shown.lookup Record.messageName).isSome then .error .unsuitable else .ok (c.entries time) := by
  obtain ⟨t, ht, htime⟩ := h.clock
  have hclock : clockTimeOf (.double c.created) = .ok t := by rw [clockTimeOf, ht]; rfl
  have hfields : c.record.fields = c.shown.map fun f => (.text f.1, f.2) := rfl
  have htext : c.record.text =
      if (c.shown.lookup Record.messageName).isSome then .error .unsuitable else .ok c.message := by
    rw [Record.text, hfields, Data.lookup?_object]
    split <;> rfl
  unfold Record.entries
  rw [htext, hfields, foldl_without]
  simp only [Data.lookup?_object, List.foldl_map]
  change (clockTimeOf (.double c.created) >>= _) = _
  rw [hclock, ok_bind, htime]
  split
  · rfl
  · have hreport : c.record.report = some (if c.asksTrouble then .text c.trouble else .data .null) := rfl
    rw [entries, start, about, hreport]
    cases c.asksTrouble <;> rfl

end Entries

end Call

end MeshOperator.Log
