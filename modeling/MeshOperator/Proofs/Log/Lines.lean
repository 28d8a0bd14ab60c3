import Mathlib.Data.Finset.Max
import MeshOperator.Proofs.Json.Unambiguous
import MeshOperator.Proofs.Json.Written
import MeshOperator.Proofs.Log.Entries

/-!
# Log lines

A call to a log that is accepted leaves one line at most, and this line is always one object of JSON, in printable
ASCII characters: whatever the fields hold, it is not split. What it tells is another matter. A field can take the
place of the time or of the name of the log, and hide the message altogether.

Texts are those without the characters U+10D800 to U+10DFFF, which hold halves of surrogate pairs.

* `Shows`: a line is the text of one object.
* `Call.Tells`: the object tells what was logged.
* `Call.IsClean`: no field stands in the way.
* `Call.lines_tell_iff`: what a call leaves.
-/

namespace MeshOperator.Log

open Json

/-- The line is the text of one object of JSON and of no other, in printable ASCII characters. -/
structure Shows (line : String) (es : List (Data × Data)) : Prop where
  printable : ∀ ch ∈ line.toList, isPrintableAscii ch = true
  document : ∃ d : Document, d.text = line.toList ∧ d.data = .dict es ∧
    ∀ d' : Document, d'.text = line.toList → d' = d

section Shows

variable {line : String} {es es' : List (Data × Data)} {v : Value}

theorem Shows.unique (h : Shows line es) (h' : Shows line es') : es = es' := by
  obtain ⟨d, -, hdata, hunique⟩ := h.document
  obtain ⟨d', htext', hdata', -⟩ := h'.document
  rw [hunique d' htext', hdata] at hdata'
  exact Data.dict.inj hdata'

/-- what is written for a mapping shows what the mapping is read back as -/
theorem shows_of_isForm (h : Data.IsForm (.dict es) v) :
    Shows (String.ofList v.text) (Data.putAll [] (Data.readBackEntries es)) := by
  have hdata : v.dataBy Atom.scalar = .dict (Data.putAll [] (Data.readBackEntries es)) := by
    rw [h.data, Data.readBack]
  have hobject : v.isObject = true := by
    cases v with
    | emptyObject | object => rfl
    | atom | emptyArray | array =>
      rw [Value.dataBy] at hdata
      cases hdata
  let d : Document := ⟨[], v, [], hobject⟩
  have htext : d.text = (String.ofList v.text).toList := by simp [d, Document.text, Gap.text]
  exact ⟨by simpa using h.printable, d, htext, hdata, fun d' hd' => Document.eq_of_text_eq (hd'.trans htext.symm)⟩

end Shows

namespace Call

/-- The object of a line tells what the call logged: what every line tells of its record, each field that is shown
under its own name, and nothing else but the text of an exception if the call asks for one. -/
structure Tells (c : Call) (time : String) (es : List (Data × Data)) : Prop where
  standard : ∀ f ∈ c.standard time, Data.lookup? f.1 es = some f.2
  fields : ∀ f ∈ c.shown, Data.lookup? f.1 es = some f.2
  others : ∀ e ∈ es, ∃ k, e.1 = .text k ∧ (k ∈ (c.standard time).map Prod.fst ∨ k ∈ c.shown.map Prod.fst ∨
    c.asksTrouble = true ∧ k = "exception")

/-- No field stands in the way: one with the name of an entry has no other value, none hides the message, their
integers can be written, and no surrogate pair stands in halves. -/
structure IsClean (c : Call) (time : String) : Prop where
  timestamp : ∀ v, ("timestamp", v) ∈ c.shown → v = .text time
  logger : ∀ v, ("logger", v) ∈ c.shown → v = .text (logName c.log)
  exception : ∀ f ∈ c.shown, c.Covers f → f.2 = (Data.text c.trouble).readBack
  getMessage : ∀ f ∈ c.shown, f.1 ≠ Record.messageName
  log_unsplit : isUnsplit (logName c.log).toList = true
  message_unsplit : isUnsplit c.message.toList = true
  names_unsplit : ∀ f ∈ c.shown, isUnsplit f.1.toList = true
  values : ∀ f ∈ c.shown, ¬ c.Covers f → f.2.isWritable = true ∧ f.2.isUnsplit = true

section Lines

variable {c : Call} {time : String} {ls : List String} {es : List (Data × Data)}

/-- what a reader takes the entries of the line for -/
def read (c : Call) (time : String) : List (Data × Data) := Data.putAll [] (Data.readBackEntries (c.entries time))

/-- A call leaves no line if a field hides the message or an integer cannot be written, and else that of its
entries. -/
theorem lines_cases (h : c.IsPlain time) (hok : c.lines = .ok ls) :
    (ls = [] ∧ ((∃ f ∈ c.shown, f.1 = Record.messageName) ∨ (Data.dict (c.entries time)).isWritable = false)) ∨
      ((∀ f ∈ c.shown, f.1 ≠ Record.messageName) ∧ (Data.dict (c.entries time)).isWritable = true ∧
        ∃ s, ls = [s] ∧ Shows s (c.read time)) := by
  obtain ⟨-, rfl⟩ := lines_eq_ok h.reaches hok
  have hentries := entries_record h
  by_cases hmessage : (c.shown.lookup Record.messageName).isSome = true
  · rw [if_pos hmessage] at hentries
    obtain ⟨v, hv⟩ := Option.isSome_iff_exists.1 hmessage
    refine .inl ⟨?_, .inl ⟨_, (Data.lookup_eq_some_iff h.nodup_shown).1 hv, rfl⟩⟩
    rw [Record.line, hentries]
    rfl
  · rw [if_neg hmessage] at hentries
    have hclear : ∀ f ∈ c.shown, f.1 ≠ Record.messageName := by
      intro f hf hname
      rw [← hname, (Data.lookup_eq_some_iff h.nodup_shown).2 hf] at hmessage
      exact hmessage rfl
    by_cases hw : (Data.dict (c.entries time)).isWritable = true
    · obtain ⟨v, hv⟩ := Data.exists_form (isJson_entries h) hw
      refine .inr ⟨hclear, hw, _, ?_, shows_of_isForm hv⟩
      rw [Record.line, hentries, ok_bind, hv.json]
      rfl
    · refine .inl ⟨?_, .inr (Bool.eq_false_iff.2 hw)⟩
      rw [Record.line, hentries, ok_bind]
      cases hjson : Data.json (.dict (c.entries time)) with
      | ok s => exact absurd (Data.isWritable_of_json (isJson_entries h) hjson) hw
      | error fault => cases fault <;> rfl

/-! ### Texts that are not split -/

theorem isUnsplit_logText {t : ClockTime} (h : t.logText = .ok time) : isUnsplit time.toList = true := by
  have hlow : ∀ c ∈ numberMarks ++ [' ', ':'], codePoint c < 0xd800 := Yaml.forall_mem_of_all (by decide)
  have hinteger (i : ℤ) : ∀ c ∈ integerText i, c ∈ numberMarks ++ [' ', ':'] := by
    obtain ⟨n, htext, -⟩ := exists_integer i
    rw [← htext]
    exact fun c hc => List.mem_append_left _ (n.mem_numberMarks c hc)
  have hpadded (w n : ℕ) : ∀ c ∈ paddedText w n, c ∈ numberMarks ++ [' ', ':'] := by
    have hdecimal : integerText n = decimalText n := by simp [integerText]
    rw [paddedText, ← hdecimal, List.forall_mem_append]
    refine ⟨fun c hc => ?_, hinteger n⟩
    rw [(List.mem_replicate.1 hc).2]
    decide
  unfold ClockTime.logText at h
  split_ifs at h
  cases h
  refine isUnsplit_of_low fun c hc => hlow c ?_
  rw [String.toList_ofList] at hc
  revert c
  simp only [ClockTime.text, List.forall_mem_append, List.forall_mem_cons, and_assoc]
  exact ⟨hinteger _, by decide, hpadded _ _, by decide, hpadded _ _, by decide, hpadded _ _, by decide,
    hpadded _ _, by decide, hpadded _ _⟩

theorem isUnsplit_standard_names {k : String} (hk : k ∈ (c.standard time).map Prod.fst) :
    isUnsplit k.toList = true := by
  have hall : ∀ k ∈ ["timestamp", "level", "logger", "message"], isUnsplit k.toList = true := by decide
  exact hall k hk

/-- what every line tells stands in it, unless a field gives another value for it -/
theorem lookup?_entries_standard (h : c.IsPlain time) {f : String × Data} (hf : f ∈ c.standard time)
    (hshown : ∀ v, (f.1, v) ∈ c.shown → v = f.2) : Data.lookup? f.1 (c.entries time) = some f.2 := by
  have hall : ∀ k ∈ ["timestamp", "level", "logger", "message"], k ≠ "exception" := by decide
  have hne : f.1 ≠ "exception" := hall f.1 (List.mem_map_of_mem (f := Prod.fst) hf)
  rw [lookup?_entries h, if_neg (fun hboth => hne hboth.2), (Data.lookup_eq_some_iff (c.nodup_standard time)).2 hf]
  cases hlookup : c.shown.lookup f.1 with
  | none => rfl
  | some v => rw [hshown v ((Data.lookup_eq_some_iff h.nodup_shown).1 hlookup)]; rfl

/-- a field that is shown stands in the line, unless an exception stands over it -/
theorem lookup?_entries_shown (h : c.IsPlain time) {f : String × Data} (hf : f ∈ c.shown)
    (hexception : ¬ c.Covers f) : Data.lookup? f.1 (c.entries time) = some f.2 := by
  rw [lookup?_entries h, if_neg (show ¬ (_ ∧ _) from hexception), (Data.lookup_eq_some_iff h.nodup_shown).2 hf]
  rfl

theorem lookup?_entries_covered (h : c.IsPlain time) {f : String × Data} (hcovers : c.Covers f) :
    Data.lookup? f.1 (c.entries time) = some (.text c.trouble) := by
  rw [lookup?_entries h, if_pos (show _ ∧ _ from hcovers)]

/-- what stands in the line is read back under its own name, if no field has a name with halves -/
theorem lookup?_read (h : c.IsPlain time) (hnames : ∀ f ∈ c.shown, isUnsplit f.1.toList = true) {key : String}
    {v : Data} (hv : Data.lookup? key (c.entries time) = some v) :
    Data.lookup? key (c.read time) = some v.readBack := by
  refine Data.lookup?_readBackEntries (c.areFields_entries time) (fun e he => ?_) hv
  obtain ⟨n, hn, hvalue⟩ := mem_entries h he
  have hunsplit : isUnsplit n.toList = true := by
    rcases hvalue with ⟨⟨-, rfl⟩, -⟩ | ⟨hshown, -⟩ | hstandard
    · decide
    · exact hnames _ hshown
    · exact isUnsplit_standard_names (List.mem_map_of_mem hstandard)
  rw [Data.readBackEntry, hn]
  exact (Data.readBack_text_eq_iff n).2 hunsplit

/-- each name that is read back is one of these, read back -/
theorem mem_read (h : c.IsPlain time) {e : Data × Data} (he : e ∈ c.read time) :
    ∃ k, e.1 = .text (String.ofList (joined k.toList)) ∧ (k ∈ (c.standard time).map Prod.fst ∨
      k ∈ c.shown.map Prod.fst ∨ c.asksTrouble = true ∧ k = "exception") := by
  obtain hnil | ⟨r, hr, rfl⟩ := Data.mem_putAll he
  · cases hnil
  rw [Data.readBackEntries_eq] at hr
  obtain ⟨e, hmem, rfl⟩ := List.mem_map.1 hr
  obtain ⟨k, hk, hvalue⟩ := mem_entries h hmem
  refine ⟨k, by rw [hk]; rfl, ?_⟩
  rcases hvalue with ⟨⟨htrouble, rfl⟩, -⟩ | ⟨hshown, -⟩ | hstandard
  · exact .inr (.inr ⟨htrouble, rfl⟩)
  · exact .inr (.inl (List.mem_map_of_mem hshown))
  · exact .inl (List.mem_map_of_mem hstandard)

theorem isUnsplit_names (hnames : ∀ f ∈ c.shown, isUnsplit f.1.toList = true) {k : String}
    (hk : k ∈ (c.standard time).map Prod.fst ∨ k ∈ c.shown.map Prod.fst ∨ c.asksTrouble = true ∧ k = "exception") :
    isUnsplit k.toList = true := by
  rcases hk with hstandard | hshown | ⟨-, rfl⟩
  · exact isUnsplit_standard_names hstandard
  · obtain ⟨f, hf, rfl⟩ := List.mem_map.1 hshown
    exact hnames f hf
  · decide

/-! ### Clean calls -/

theorem IsClean.tells (h : c.IsPlain time) (hclean : c.IsClean time)
    (hnames : ∀ f ∈ c.fields, f.1 ∉ parameterNames) : c.Tells time (c.read time) := by
  have hparameters : "level" ∈ parameterNames ∧ "message" ∈ parameterNames := by decide
  have hlevel (v : Data) : ("level", v) ∉ c.shown := fun hv => hnames _ (mem_fields_of_shown hv) hparameters.1
  have hmessage (v : Data) : ("message", v) ∉ c.shown := fun hv => hnames _ (mem_fields_of_shown hv) hparameters.2
  have hvalues : ∀ f ∈ c.standard time, ∀ v, (f.1, v) ∈ c.shown → v = f.2 :=
    forall_mem_standard.2 ⟨hclean.timestamp, fun v hv => absurd hv (hlevel v), hclean.logger,
      fun v hv => absurd hv (hmessage v)⟩
  have hread : ∀ f ∈ c.standard time, f.2.readBack = f.2 := by
    obtain ⟨t, -, htime⟩ := h.clock
    have hlevel : isUnsplit (levelName c.level.number).toList = true := by cases c.level <;> decide
    exact forall_mem_standard.2 ⟨(Data.readBack_text_eq_iff _).2 (isUnsplit_logText htime),
      (Data.readBack_text_eq_iff _).2 hlevel, (Data.readBack_text_eq_iff _).2 hclean.log_unsplit,
      (Data.readBack_text_eq_iff _).2 hclean.message_unsplit⟩
  refine ⟨fun f hf => ?_, fun f hf => ?_, fun e he => ?_⟩
  · rw [lookup?_read h hclean.names_unsplit (lookup?_entries_standard h hf (hvalues f hf)), hread f hf]
  · by_cases hcovers : c.Covers f
    · rw [lookup?_read h hclean.names_unsplit (lookup?_entries_covered h hcovers), hclean.exception f hf hcovers]
    · rw [lookup?_read h hclean.names_unsplit (lookup?_entries_shown h hf hcovers),
        (Data.readBack_eq_iff (h.values f (mem_fields_of_shown hf))).2 (hclean.values f hf hcovers).2]
  · obtain ⟨k, hk, hname⟩ := mem_read h he
    rw [joined_of_isUnsplit (isUnsplit_names hclean.names_unsplit hname), String.ofList_toList] at hk
    exact ⟨k, hk, hname⟩

theorem IsClean.isWritable_entries (h : c.IsPlain time) (hclean : c.IsClean time) :
    (Data.dict (c.entries time)).isWritable = true := by
  rw [Data.isWritable, Data.areWritableEntries_iff]
  intro e he
  obtain ⟨k, hk, hvalue⟩ := mem_entries h he
  refine ⟨by rw [hk]; rfl, ?_⟩
  rcases hvalue with ⟨-, hvalue⟩ | ⟨hshown, hcovers⟩ | hstandard
  · rw [hvalue]
    rfl
  · exact (hclean.values _ hshown hcovers).1
  · have hall : ∀ f ∈ c.standard time, f.2.isWritable = true := forall_mem_standard.2 ⟨rfl, rfl, rfl, rfl⟩
    exact hall _ hstandard

/-! ### Lines that tell what was logged -/

section Telling

variable (h : c.IsPlain time) (htells : c.Tells time (c.read time))
include h htells

/-- A name with halves is read back as a shorter one. So the longest of them is not the name of anything that is
read back. -/
theorem Tells.names_unsplit : ∀ f ∈ c.shown, isUnsplit f.1.toList = true := by
  intro f hf
  by_contra hsplit
  let split : Finset String := ((c.shown.map Prod.fst).filter fun k => !isUnsplit k.toList).toFinset
  have hmem {k : String} : k ∈ split ↔ k ∈ c.shown.map Prod.fst ∧ isUnsplit k.toList = false := by
    simp [split]
  obtain ⟨k, hk, hlongest⟩ := split.exists_max_image (fun k => k.toList.length)
    ⟨f.1, hmem.2 ⟨List.mem_map_of_mem hf, Bool.eq_false_iff.2 hsplit⟩⟩
  obtain ⟨hshown, hksplit⟩ := hmem.1 hk
  obtain ⟨g, hg, rfl⟩ := List.mem_map.1 hshown
  obtain ⟨n, hn, hname⟩ := mem_read h (Data.mem_of_lookup? (htells.fields g hg))
  have hjoined : g.1.toList = joined n.toList := by
    have hname : g.1 = String.ofList (joined n.toList) := by simpa using hn
    rw [hname, String.toList_ofList]
  by_cases hnsplit : isUnsplit n.toList = true
  · rw [hjoined, joined_of_isUnsplit hnsplit, hnsplit] at hksplit
    cases hksplit
  · have hn' : n ∈ split := by
      refine hmem.2 ⟨?_, Bool.eq_false_iff.2 hnsplit⟩
      rcases hname with hstandard | hshown | ⟨-, rfl⟩
      · exact absurd (isUnsplit_standard_names hstandard) hnsplit
      · exact hshown
      · exact absurd (by decide) hnsplit
    have hle := hlongest n hn'
    have hlt := length_joined_lt (Bool.eq_false_iff.2 hnsplit)
    rw [← hjoined] at hlt
    omega

omit h in
/-- no field has another value for what every line tells -/
theorem Tells.eq_of_standard {f : String × Data} (hf : f ∈ c.standard time) {v : Data} (hv : (f.1, v) ∈ c.shown) :
    v = f.2 := Option.some.inj ((htells.fields _ hv).symm.trans (htells.standard f hf))

theorem Tells.readBack_standard {f : String × Data} (hf : f ∈ c.standard time) : f.2.readBack = f.2 := by
  have hentry := lookup?_entries_standard h hf fun v hv => htells.eq_of_standard hf hv
  exact Option.some.inj ((lookup?_read h (htells.names_unsplit h) hentry).symm.trans (htells.standard f hf))

theorem Tells.isClean (hclear : ∀ f ∈ c.shown, f.1 ≠ Record.messageName)
    (hw : (Data.dict (c.entries time)).isWritable = true) : c.IsClean time := by
  have hnames := htells.names_unsplit h
  obtain ⟨htimestamp, -, hlogger, -⟩ :=
    forall_mem_standard.1 fun f hf v => htells.eq_of_standard (f := f) hf (v := v)
  obtain ⟨-, -, hlog, hmessage⟩ := forall_mem_standard.1 fun f hf => htells.readBack_standard h (f := f) hf
  rw [Data.isWritable, Data.areWritableEntries_iff] at hw
  refine {
    timestamp := htimestamp
    logger := hlogger
    exception := fun f hf hcovers => ?_
    getMessage := hclear
    log_unsplit := (Data.readBack_text_eq_iff _).1 hlog
    message_unsplit := (Data.readBack_text_eq_iff _).1 hmessage
    names_unsplit := hnames
    values := fun f hf hcovers => ?_ }
  · have hread := lookup?_read h hnames (lookup?_entries_covered h hcovers)
    exact Option.some.inj ((htells.fields f hf).symm.trans hread)
  · have hentry := lookup?_entries_shown h hf hcovers
    have hread := (lookup?_read h hnames hentry).symm.trans (htells.fields f hf)
    exact ⟨(hw _ (Data.mem_of_lookup? hentry)).2,
      (Data.readBack_eq_iff (h.values f (mem_fields_of_shown hf))).1 (Option.some.inj hread)⟩

end Telling

/-- **Log lines.**  A call that is accepted leaves one line at most, which is always one object of JSON. There is a
line, and it tells what was logged, exactly if no field stands in the way. In the name of the log, the message and
the fields the characters U+10D800 to U+10DFFF are halves of surrogate pairs (`holdsHalf`), so these texts hold none
of them as themselves. -/
theorem lines_tell_iff (h : c.IsPlain time) (hok : c.lines = .ok ls) :
    (ls = [] ∨ ∃ s es, ls = [s] ∧ Shows s es) ∧
      ((∃ s es, ls = [s] ∧ Shows s es ∧ c.Tells time es) ↔ c.IsClean time) := by
  have hnames := (lines_eq_ok h.reaches hok).1
  rcases lines_cases h hok with ⟨rfl, hno⟩ | ⟨hclear, hw, s, rfl, hshows⟩
  · refine ⟨.inl rfl, ?_⟩
    constructor
    · rintro ⟨s, es, hls, -⟩
      cases hls
    · intro hclean
      rcases hno with ⟨f, hf, hname⟩ | hw
      · exact absurd hname (hclean.getMessage f hf)
      · cases (hclean.isWritable_entries h).symm.trans hw
  · refine ⟨.inr ⟨s, _, rfl, hshows⟩, ?_⟩
    constructor
    · rintro ⟨s', es, hls, hshows', htells⟩
      obtain rfl := List.singleton_injective hls
      rw [hshows'.unique hshows] at htells
      exact htells.isClean h hclear hw
    · exact fun hclean => ⟨s, _, rfl, hshows, hclean.tells h hnames⟩

/-- numbers that are written without a power of ten, with a sign and with a power of ten: 0.1, -0.0 and 2 ^ 1023 -/
def numbers : List Data := [.double (.finite false 7205759403792794 (-56)), .double (.zero true),
  .double (.finite false (2 ^ 52) 971)]

/-- a call in the middle of an exception, whose texts look like parts of a line and like several lines -/
def verbose : Call where
  log := ""
  created := .ofInt 1700000000
  trouble := "Traceback (most recent call last):\nValueError: no \"helm\""
  threshold := 30
  level := .error
  message := "helm failed:\n\x7b\"level\": \"INFO\"\x7d\r"
  fields := [("exc_info", .bool true), ("reason", .text "Failed\t\u0001é😀"), ("uid", .null),
    ("delays", .list numbers), ("values", .dict [(.text "\\", .bool false), (.text "", .list [.int (-7)])])]

/-- Its line tells what was logged. -/
theorem lines_tell_verbose :
    ∃ s es, verbose.lines = .ok [s] ∧ Shows s es ∧ verbose.Tells "2023-11-14 22:13:20" es := by
  have hshown : verbose.shown = [("reason", .text "Failed\t\u0001é😀"), ("delays", .list numbers),
      ("values", .dict [(.text "\\", .bool false), (.text "", .list [.int (-7)])])] := rfl
  have hnumbers : ∀ d ∈ numbers, d.IsJson := by
    simp only [numbers, List.forall_mem_cons]
    exact ⟨.double _ (by decide), .double _ (by decide), .double _ (by decide), List.forall_mem_nil _⟩
  have hvalues : (Data.dict [(.text "\\", .bool false), (.text "", .list [.int (-7)])]).IsJson := by
    have hnames : (List.map (Prod.fst : String × Data → String)
        [("\\", .bool false), ("", .list [.int (-7)])]).Nodup := by decide
    refine .dict (Data.areFields_object hnames) ?_
    simp only [List.forall_mem_cons]
    exact ⟨.bool _, .list (by simpa using .int (-7)), List.forall_mem_nil _⟩
  have hplain : verbose.IsPlain "2023-11-14 22:13:20" := by
    refine ⟨⟨⟨2023, 11, 14, 22, 13, 20⟩, rfl, rfl⟩, by decide, by decide, ?_⟩
    simp only [verbose, List.forall_mem_cons]
    exact ⟨.bool _, .text _, .null, .list hnumbers, hvalues, List.forall_mem_nil _⟩
  have hwritten : ∀ f ∈ verbose.shown, ¬ verbose.Covers f → f.2.isWritable = true ∧ f.2.isUnsplit = true := by
    simp only [hshown, List.forall_mem_cons]
    exact ⟨fun _ => by decide +kernel, fun _ => by decide +kernel, fun _ => by decide +kernel,
      List.forall_mem_nil _⟩
  have hclean : verbose.IsClean "2023-11-14 22:13:20" := {
    timestamp := by simp [hshown]
    logger := by simp [hshown]
    exception := by simp [hshown, Covers]
    getMessage := by simp [hshown, Record.messageName]
    log_unsplit := by decide
    message_unsplit := by decide
    names_unsplit := by rw [hshown]; decide
    values := hwritten }
  obtain ⟨ls, hok⟩ : ∃ ls, verbose.lines = .ok ls := exists_of_isOk (by decide +kernel)
  obtain ⟨s, es, rfl, hshows, htells⟩ := (lines_tell_iff hplain hok).2.2 hclean
  exact ⟨s, es, hok, hshows, htells⟩

/-- a call with a field that has the name of an entry -/
def forged : Call where
  log := operatorLog
  created := .ofInt 1700000000
  trouble := noTrouble
  threshold := 10
  level := .info
  message := "m"
  fields := [("logger", .text "forged")]

/-- a call with a field that has the name under which a record gives its message -/
def hushed : Call := { forged with fields := [("getMessage", .text "m")] }

/-- The line of the one tells another name of the log than its own, and the other leaves none. -/
theorem not_lines_tell_forged : forged.IsPlain "2023-11-14 22:13:20" ∧ hushed.IsPlain "2023-11-14 22:13:20" ∧
    (∃ s es, forged.lines = .ok [s] ∧ Shows s es ∧ Data.lookup? "logger" es = some (.text "forged") ∧
      ¬ forged.Tells "2023-11-14 22:13:20" es) ∧ hushed.lines = .ok [] := by
  have hforged : forged.IsPlain "2023-11-14 22:13:20" := by
    refine ⟨⟨⟨2023, 11, 14, 22, 13, 20⟩, rfl, rfl⟩, by decide, by decide, ?_⟩
    simpa [forged] using .text "forged"
  have hhushed : hushed.IsPlain "2023-11-14 22:13:20" := by
    refine ⟨⟨⟨2023, 11, 14, 22, 13, 20⟩, rfl, rfl⟩, by decide, by decide, ?_⟩
    simpa [hushed] using .text "m"
  refine ⟨hforged, hhushed, ?_, ?_⟩
  · obtain ⟨ls, hok⟩ : ∃ ls, forged.lines = .ok ls := exists_of_isOk (by decide +kernel)
    have hone : forged.lines.toOption.map List.length = some 1 := by decide +kernel
    rw [hok] at hone
    rcases lines_cases hforged hok with ⟨rfl, -⟩ | ⟨-, -, s, rfl, hshows⟩
    · cases hone
    · have hread : Data.lookup? "logger" (forged.read "2023-11-14 22:13:20") = some (.text "forged") := rfl
      refine ⟨s, _, hok, hshows, hread, fun htells => ?_⟩
      have hstandard : ("logger", .text operatorLog) ∈ forged.standard "2023-11-14 22:13:20" := by
        simp [standard, forged, logName, operatorLog]
      have hname : Data.text "forged" = .text operatorLog :=
        htells.eq_of_standard hstandard (by simp [shown, forged, Data.isNull])
      exact absurd (Data.scalar.inj hname) (by decide)
  · obtain ⟨ls, hok⟩ : ∃ ls, hushed.lines = .ok ls := exists_of_isOk (by decide +kernel)
    have hnone : hushed.lines.toOption = some [] := by decide +kernel
    rw [hok] at hnone ⊢
    rw [Option.some.inj hnone]

end Lines

end Call

end MeshOperator.Log
