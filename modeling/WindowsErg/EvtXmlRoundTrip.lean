import WindowsErg.EvtXml

/-! Which renderings of a system record as XML are read back to the record. -/
namespace WindowsErg.Evt
open Option List TextScan XmlTokens CivilCalendar

/-- What the system part of an event states, but for the level. The years are those of a
`SYSTEMTIME`. -/
structure SystemFields where
  provider : Text
  created : CivilTime
  id : UInt32
  channel : Text
  computer : Text
  recordId : UInt64
  processId : UInt32
  threadId : UInt32
  created_range : 1601 ≤ created.date.year ∧ created.date.year ≤ 30827

structure SystemRecord extends SystemFields where
  level : EventLevel

def SystemRecord.event (record : SystemRecord) : Event where
  id := record.id
  level := record.level
  provider := record.provider
  channel := record.channel
  computer := record.computer
  timestamp := some record.created.sinceEpoch
  recordId := some record.recordId
  processId := some record.processId
  threadId := some record.threadId

/-- What a rendering is free to choose: self-closing elements, more attributes and their order,
escapes, and the digits of a second's fraction. -/
structure Rendering where
  rootAttributes : List (Text × RawText)
  providerForm : ElementForm
  timeForm : ElementForm
  executionForm : ElementForm
  providerAttributes : List (Text × RawText)
  timeAttributes : List (Text × RawText)
  executionAttributes : List (Text × RawText)
  idAttributes : List (Text × RawText)
  provider : RawText
  channel : RawText
  computer : RawText
  fraction : Text

def unescaped (s : Text) : RawText := s.map .char

structure Rendering.States (r : Rendering) (fields : SystemFields) : Prop where
  provider : meaning attributeReserved r.provider = some fields.provider
  channel : meaning textReserved r.channel = some fields.channel
  computer : meaning textReserved r.computer = some fields.computer
  fraction : StatesFraction fields.created r.fraction
  name : HasAttribute r.providerAttributes "Name".toList r.provider
  systemTime : HasAttribute r.timeAttributes "SystemTime".toList
    (unescaped (timeText fields.created r.fraction))
  processId : HasAttribute r.executionAttributes "ProcessID".toList
    (unescaped (decimal fields.processId.toNat))
  threadId : HasAttribute r.executionAttributes "ThreadID".toList
    (unescaped (decimal fields.threadId.toNat))

def Rendering.systemTokens (r : Rendering) (fields : SystemFields) (levelCode : ℕ) :
    List XmlToken :=
  bareElement r.providerForm "Provider".toList r.providerAttributes ++
  textElement "EventID".toList r.idAttributes (unescaped (decimal fields.id.toNat)) ++
  textElement "Level".toList [] (unescaped (decimal levelCode)) ++
  bareElement r.timeForm "TimeCreated".toList r.timeAttributes ++
  textElement "EventRecordID".toList [] (unescaped (decimal fields.recordId.toNat)) ++
  bareElement r.executionForm "Execution".toList r.executionAttributes ++
  textElement "Channel".toList [] r.channel ++
  textElement "Computer".toList [] r.computer

def Rendering.tokens (r : Rendering) (fields : SystemFields) (levelCode : ℕ) : List XmlToken :=
  [.start "Event".toList (attributeTokens r.rootAttributes), .start "System".toList []] ++
    r.systemTokens fields levelCode ++ [.endTag "System".toList, .endTag "Event".toList]

theorem XmlState.run_append (st : XmlState) (front back : List XmlToken) :
    st.run (front ++ back) = (st.run front >>= fun st => st.run back) := by
  unfold XmlState.run
  exact foldlM_append

theorem XmlState.run_then {st st' st'' : XmlState} {front back : List XmlToken}
    (hfront : st.run front = .ok st') (hback : st'.run back = .ok st'') :
    st.run (front ++ back) = .ok st'' := by
  rw [XmlState.run_append, hfront]
  exact hback

def between (event : Event) : XmlState := ⟨event, [], true⟩

section
variable {name : Text} {attributes : List (Text × RawText)}

theorem run_openClose {event event' : Event} (hname : name ≠ "System".toList)
    (hstart : startAttributes name event (attributeTokens attributes) = .ok event') :
    (between event).run (bareElement .openClose name attributes) = .ok (between event') := by
  simp only [XmlState.run, bareElement, foldlM_cons, foldlM_nil, XmlState.step, between,
    if_neg hname, if_true, hstart, bind, Except.bind, pure, Except.pure]

theorem run_selfClosing {event : Event} (hname : name ≠ "Execution".toList) :
    (between event).run (bareElement .selfClosing name attributes) = .ok (between event) := by
  simp only [XmlState.run, bareElement, foldlM_cons, foldlM_nil, XmlState.step, between,
    hname, and_false, if_false, bind, Except.bind, pure, Except.pure]

theorem run_runTokens {tag : Text} (htag : tag ≠ []) (event : Event) (run : Text) :
    XmlState.run ⟨event, tag, true⟩ (runTokens run) =
      .ok ⟨(texts (runTokens run)).foldl (textField tag) event, tag, true⟩ := by
  unfold runTokens
  split_ifs
  · rfl
  · simp only [XmlState.run, foldlM_cons, foldlM_nil, XmlState.step, htag, ne_eq,
      not_false_eq_true, and_self, if_true, bind, Except.bind, pure, Except.pure]
    rfl

theorem run_textTokens {tag : Text} (htag : tag ≠ []) (event : Event) (run : Text) (raw : RawText) :
    XmlState.run ⟨event, tag, true⟩ (textTokens run raw) =
      .ok ⟨(texts (textTokens run raw)).foldl (textField tag) event, tag, true⟩ := by
  induction raw generalizing event run with
  | nil => exact run_runTokens htag event run
  | cons c raw ih =>
    cases c with
    | char c => exact ih event (run ++ [c])
    | reference entity =>
      rw [textTokens, XmlState.run_append, run_runTokens htag, texts_append, foldl_append]
      exact ih _ []

theorem run_textElement (event : Event)
    (content : RawText) (hname : name ≠ "System".toList) (hempty : name ≠ [])
    (hstart : ∀ event attributes, startAttributes name event attributes = .ok event) :
    (between event).run (textElement name attributes content) =
      .ok (between ((texts (textTokens [] content)).foldl (textField name) event)) := by
  have hopen : (between event).run [.start name (attributeTokens attributes)] =
      .ok ⟨event, name, true⟩ := by
    simp only [XmlState.run, foldlM_cons, foldlM_nil, XmlState.step, between,
      if_neg hname, if_true, hstart, bind, Except.bind, pure, Except.pure]
  have hclose (event : Event) :
      XmlState.run ⟨event, name, true⟩ [.endTag name] = .ok (between event) := by
    simp only [XmlState.run, foldlM_cons, foldlM_nil, XmlState.step, between,
      if_neg hname, bind, Except.bind, pure, Except.pure]
  have hsplit : textElement name attributes content =
      [.start name (attributeTokens attributes)] ++ textTokens [] content ++ [.endTag name] := rfl
  rw [hsplit, XmlState.run_append, XmlState.run_append, hopen]
  simp only [bind, Except.bind, run_textTokens hempty, hclose]

end

theorem texts_decimal (n : ℕ) : texts (textTokens [] (unescaped (decimal n))) = [decimal n] := by
  have hspace : ∀ c ∈ decimal n, isXmlSpace c = false := by
    intro c hc
    have hdigit := (isDigit_iff c).mp (isDigit_of_mem_decimal n c hc)
    have hne (d : Char) (hd : d.toNat < 48) : c ≠ d := by
      intro he
      subst he
      omega
    simp only [isXmlSpace, hne ' ' (by decide), hne '\t' (by decide), hne '\r' (by decide),
      hne '\n' (by decide), decide_false, Bool.or_self]
  have htrim : trimXml (decimal n) = decimal n := by
    have hfront : (decimal n).dropWhile isXmlSpace = decimal n := by
      rw [dropWhile_eq_self_iff]
      intro hlen
      rw [hspace _ (getElem_mem _)]
      exact Bool.false_ne_true
    rw [trimXml, hfront, rdropWhile_eq_self_iff]
    intro hne
    rw [hspace _ (getLast_mem hne)]
    exact Bool.false_ne_true
  rw [unescaped, textTokens_map_char, nil_append, texts_runTokens, htrim, if_neg (decimal_ne_nil n)]

theorem run_eventId (r : Rendering) (fields : SystemFields) (event : Event) :
    (between event).run
        (textElement "EventID".toList r.idAttributes (unescaped (decimal fields.id.toNat))) =
      .ok (between { event with id := fields.id }) := by
  have hvalue : parseNumber (2^32) (decimal fields.id.toNat) = some fields.id.toNat :=
    fromStrRadix_decimal _ _ fields.id.toNat_lt
  rw [run_textElement event _ (by decide) (by decide) (fun _ _ => rfl), texts_decimal]
  simp only [foldl_cons, foldl_nil, textField, if_true, hvalue, getD_some, UInt32.ofNat_toNat]

def readLevel (levelCode : ℕ) : EventLevel :=
  (EventLevel.fromCode (UInt8.ofNat levelCode)).getD .verbose

theorem run_level (levelCode : ℕ) (hcode : levelCode < 2^8) (event : Event) :
    (between event).run (textElement "Level".toList [] (unescaped (decimal levelCode))) =
      .ok (between { event with level := readLevel levelCode }) := by
  have hvalue : parseNumber (2^8) (decimal levelCode) = some levelCode :=
    fromStrRadix_decimal _ _ hcode
  have hfield : textField "Level".toList event (decimal levelCode) =
      { event with level := readLevel levelCode } := by
    rw [textField, if_neg (by decide), if_pos rfl, hvalue, getD_some]
    rfl
  rw [run_textElement event _ (by decide) (by decide) (fun _ _ => rfl), texts_decimal,
    foldl_cons, foldl_nil, hfield]

theorem run_recordId (fields : SystemFields) (event : Event) :
    (between event).run
        (textElement "EventRecordID".toList [] (unescaped (decimal fields.recordId.toNat))) =
      .ok (between { event with recordId := some fields.recordId }) := by
  have hvalue : parseNumber (2^64) (decimal fields.recordId.toNat) = some fields.recordId.toNat :=
    fromStrRadix_decimal _ _ fields.recordId.toNat_lt
  rw [run_textElement event _ (by decide) (by decide) (fun _ _ => rfl), texts_decimal]
  have hfield : textField "EventRecordID".toList event (decimal fields.recordId.toNat) =
      { event with recordId := some fields.recordId } := by
    rw [textField, if_neg (by decide), if_neg (by decide), if_neg (by decide),
      if_neg (by decide), if_pos rfl, hvalue]
    simp only [UInt64.ofNat_toNat]
  rw [foldl_cons, foldl_nil, hfield]

theorem foldl_overwrite {σ α : Type} (set : σ → α → σ)
    (hset : ∀ s a b, set (set s a) b = set s b) (values : List α) (s : σ) :
    values.foldl set s = values.getLast?.elim s (set s) := by
  induction values generalizing s with
  | nil => rfl
  | cons first values ih =>
    rw [foldl_cons, ih, List.getLast?_cons]
    cases values.getLast? with
    | none => rfl
    | some last => exact hset s first last

def lastRun (raw : RawText) : Text := (texts (textTokens [] raw)).getLast?.getD []

theorem run_channel (raw : RawText) (event : Event) (hevent : event.channel = []) :
    (between event).run (textElement "Channel".toList [] raw) =
      .ok (between { event with channel := lastRun raw }) := by
  rw [run_textElement event _ (by decide) (by decide) (fun _ _ => rfl),
    foldl_overwrite (textField "Channel".toList) (fun _ _ _ => rfl), lastRun]
  cases (texts (textTokens [] raw)).getLast? with
  | none =>
    rw [getD_none, ← hevent]
    rfl
  | some last => rfl

theorem run_computer (raw : RawText) (event : Event) (hevent : event.computer = []) :
    (between event).run (textElement "Computer".toList [] raw) =
      .ok (between { event with computer := lastRun raw }) := by
  rw [run_textElement event _ (by decide) (by decide) (fun _ _ => rfl),
    foldl_overwrite (textField "Computer".toList) (fun _ _ _ => rfl), lastRun]
  cases (texts (textTokens [] raw)).getLast? with
  | none =>
    rw [getD_none, ← hevent]
    rfl
  | some last => rfl

theorem run_provider (r : Rendering) (event : Event) (hevent : event.provider = [])
    (hname : HasAttribute r.providerAttributes "Name".toList r.provider) :
    (between event).run (bareElement r.providerForm "Provider".toList r.providerAttributes) =
      .ok (between { event with
        provider := if r.providerForm = .openClose then source r.provider else [] }) := by
  cases hform : r.providerForm with
  | selfClosing =>
    rw [run_selfClosing (by decide), if_neg (by decide), ← hevent]
  | openClose =>
    rw [if_pos rfl]
    apply run_openClose (by decide)
    have hfold : (attributeTokens r.providerAttributes).foldlM
        (fun event a => (pure (providerAttribute event a) : Except RenderFault Event)) event =
        pure { event with provider := source r.provider } := by
      rw [foldlM_attribute hname]
      · rfl
      · intro a _ hne s
        simp only [providerAttribute, if_neg hne]
    rw [foldlM_pure] at hfold
    exact hfold

theorem run_timeCreated (r : Rendering) (fields : SystemFields) (event : Event)
    (timestamp : Option ℤ) (hevent : event.timestamp = none)
    (htime : HasAttribute r.timeAttributes "SystemTime".toList
      (unescaped (timeText fields.created r.fraction)))
    (hparse : parseIso8601Timestamp (timeText fields.created r.fraction) = .ok timestamp) :
    (between event).run (bareElement r.timeForm "TimeCreated".toList r.timeAttributes) =
      .ok (between { event with
        timestamp := if r.timeForm = .openClose then timestamp else none }) := by
  cases hform : r.timeForm with
  | selfClosing =>
    rw [run_selfClosing (by decide), if_neg (by decide), ← hevent]
  | openClose =>
    rw [if_pos rfl]
    apply run_openClose (by decide)
    have hfold : (attributeTokens r.timeAttributes).foldlM timeCreatedAttribute event =
        .ok { event with timestamp := timestamp } := by
      rw [foldlM_attribute htime]
      · simp only [timeCreatedAttribute, if_true, unescaped, source_map_char, hparse]
      · intro a _ hne s
        simp only [timeCreatedAttribute, if_neg hne]
        rfl
    exact hfold

theorem run_execution (r : Rendering) (fields : SystemFields) (event : Event)
    (hevent : event.processId = none ∧ event.threadId = none)
    (hprocess : HasAttribute r.executionAttributes "ProcessID".toList
      (unescaped (decimal fields.processId.toNat)))
    (hthread : HasAttribute r.executionAttributes "ThreadID".toList
      (unescaped (decimal fields.threadId.toNat))) :
    (between event).run (bareElement r.executionForm "Execution".toList r.executionAttributes) =
      .ok (between { event with
        processId := if r.executionForm = .selfClosing then some fields.processId else none
        threadId := if r.executionForm = .selfClosing then some fields.threadId else none }) := by
  have hpid : parseNumber (2^32) (decimal fields.processId.toNat) = some fields.processId.toNat :=
    fromStrRadix_decimal _ _ fields.processId.toNat_lt
  have htid : parseNumber (2^32) (decimal fields.threadId.toNat) = some fields.threadId.toNat :=
    fromStrRadix_decimal _ _ fields.threadId.toNat_lt
  cases hform : r.executionForm with
  | openClose =>
    have hsame : ({ event with processId := none, threadId := none } : Event) = event := by
      cases event
      simp only at hevent
      rw [hevent.1, hevent.2]
    rw [if_neg (by decide), if_neg (by decide), hsame]
    exact run_openClose (by decide) rfl
  | selfClosing =>
    have hpidStep (event : Event) :
        executionAttribute event (some ("ProcessID".toList,
          source (unescaped (decimal fields.processId.toNat)))) =
          { event with processId := some fields.processId } := by
      simp only [executionAttribute, if_true, unescaped, source_map_char, hpid, UInt32.ofNat_toNat]
    have htidStep (event : Event) :
        executionAttribute event (some ("ThreadID".toList,
          source (unescaped (decimal fields.threadId.toNat)))) =
          { event with threadId := some fields.threadId } := by
      rw [executionAttribute, if_neg (by decide), if_pos rfl, unescaped, source_map_char, htid]
      simp only [UInt32.ofNat_toNat]
    have hfold : (attributeTokens r.executionAttributes).foldlM
        (fun event a => (pure (executionAttribute event a) : Except RenderFault Event)) event =
        pure { event with
          processId := some fields.processId, threadId := some fields.threadId } := by
      rw [foldlM_two_attributes hprocess hthread (by decide)]
      · simp only [hpidStep, htidStep, pure_bind]
      · intro other raw s hne hne'
        simp only [executionAttribute, if_neg hne, if_neg hne']
      · intro s
        simp only [hpidStep, htidStep, pure_bind]
    rw [foldlM_pure] at hfold
    have hevents := Except.ok.inj hfold
    simp only [XmlState.run, bareElement, foldlM_cons, foldlM_nil, XmlState.step,
      between, and_self, if_true, hevents, bind, Except.bind, pure, Except.pure]

def Rendering.readEvent (r : Rendering) (fields : SystemFields) (level : EventLevel)
    (timestamp : Option ℤ) : Event where
  id := fields.id
  level := level
  provider := if r.providerForm = .openClose then source r.provider else []
  channel := lastRun r.channel
  computer := lastRun r.computer
  timestamp := if r.timeForm = .openClose then timestamp else none
  recordId := some fields.recordId
  processId := if r.executionForm = .selfClosing then some fields.processId else none
  threadId := if r.executionForm = .selfClosing then some fields.threadId else none

section
variable (r : Rendering) (fields : SystemFields) (h : r.States fields) {levelCode : ℕ}
    (hcode : levelCode < 2^8) (timestamp : Option ℤ)
include h hcode

theorem run_systemTokens
    (hparse : parseIso8601Timestamp (timeText fields.created r.fraction) = .ok timestamp) :
    (between {}).run (r.systemTokens fields levelCode) =
      .ok (between (r.readEvent fields (readLevel levelCode) timestamp)) := by
  have hprovider := run_provider r {} rfl h.name
  have hid := XmlState.run_then hprovider (run_eventId r fields _)
  have hlevel := XmlState.run_then hid (run_level levelCode hcode _)
  have htime := XmlState.run_then hlevel
    (run_timeCreated r fields _ timestamp rfl h.systemTime hparse)
  have hrecord := XmlState.run_then htime (run_recordId fields _)
  have hexecution := XmlState.run_then hrecord
    (run_execution r fields _ ⟨rfl, rfl⟩ h.processId h.threadId)
  have hchannel := XmlState.run_then hexecution (run_channel r.channel _ rfl)
  exact XmlState.run_then hchannel (run_computer r.computer _ rfl)

theorem parse_tokens (trailing : List Text)
    (hparse : parseIso8601Timestamp (timeText fields.created r.fraction) = .ok timestamp) :
    parseEventXmlWithQuickXml (r.tokens fields levelCode ++ trailing.map .text) =
      .ok (r.readEvent fields (readLevel levelCode) timestamp) := by
  have hopen : XmlState.run ⟨{}, [], false⟩
      [.start "Event".toList (attributeTokens r.rootAttributes), .start "System".toList []] =
      .ok (between {}) := rfl
  have hclose (event : Event) : (between event).run
      [.endTag "System".toList, .endTag "Event".toList] = .ok ⟨event, [], false⟩ := rfl
  have hbehind (event : Event) :
      XmlState.run ⟨event, [], false⟩ (trailing.map .text) = .ok ⟨event, [], false⟩ := by
    induction trailing with
    | nil => rfl
    | cons text trailing ih => exact ih
  have hdocument := XmlState.run_then
    (XmlState.run_then hopen (run_systemTokens r fields h hcode timestamp hparse)) (hclose _)
  rw [parseEventXmlWithQuickXml, Rendering.tokens, XmlState.run_then hdocument (hbehind _)]
  rfl

end

/-- The rendering keeps every value: only what the function looks for in the right form, nothing
escaped, no white space to lose, and a time that it can read. -/
structure Rendering.Kept (r : Rendering) (fields : SystemFields) : Prop where
  provider : (r.providerForm = .openClose ∨ fields.provider = []) ∧ Unescaped r.provider
  time : r.timeForm = .openClose ∧
    (1970 ≤ fields.created.date.year ∧ fields.created.date.year < 10000) ∧
    FractionKept fields.created r.fraction
  execution : r.executionForm = .selfClosing
  channel : Unescaped r.channel ∧ trimXml fields.channel = fields.channel
  computer : Unescaped r.computer ∧ trimXml fields.computer = fields.computer

theorem provider_kept_iff {r : Rendering} {fields : SystemFields} (h : r.States fields) :
    (if r.providerForm = .openClose then source r.provider else []) = fields.provider ↔
      (r.providerForm = .openClose ∨ fields.provider = []) ∧ Unescaped r.provider := by
  have hsource := source_eq_iff h.provider
  by_cases hform : r.providerForm = .openClose
  · rw [if_pos hform, hsource, and_iff_right (Or.inl hform)]
  · rw [if_neg hform]
    constructor
    · intro hempty
      have hnil : r.provider = [] := by
        apply eq_nil_of_length_eq_zero
        rw [length_of_meaning h.provider, ← hempty]
        rfl
      rw [hnil]
      exact ⟨Or.inr hempty.symm, rfl⟩
    · rintro ⟨hopen | hempty, -⟩
      · exact absurd hopen hform
      · exact hempty.symm

theorem EventLevel.code_lt (level : EventLevel) : level.code < 2^8 := by
  cases level <;> decide

theorem readLevel_code (level : EventLevel) : readLevel level.code = level := by
  cases level <;> rfl

/-- A rendering that states the values of a record is read back to the record exactly if it keeps
every value. -/
theorem event_xml_round_trip_iff (r : Rendering) (record : SystemRecord)
    (h : r.States record.toSystemFields) :
    parseEventXmlWithQuickXml (r.tokens record.toSystemFields record.level.code) =
      .ok record.event ↔ r.Kept record.toSystemFields := by
  obtain ⟨timestamp, hparse⟩ :=
    exists_parseIso8601Timestamp record.created r.fraction h.fraction.digits
  have htime := parseIso8601Timestamp_timeText_iff record.created r.fraction h.fraction
  rw [hparse, Except.ok.injEq] at htime
  have hprovider := provider_kept_iff h
  have hchannel := last_text_eq_iff h.channel
  have hcomputer := last_text_eq_iff h.computer
  have hread := parse_tokens r record.toSystemFields h (EventLevel.code_lt record.level) timestamp
    [] hparse
  rw [map_nil, append_nil, readLevel_code] at hread
  rw [hread, Except.ok.injEq]
  constructor
  · intro he
    have hexecution : r.executionForm = .selfClosing := by
      have hpid := congrArg Event.processId he
      by_contra hform
      simp only [Rendering.readEvent, SystemRecord.event, if_neg hform] at hpid
      contradiction
    have hopen : r.timeForm = .openClose := by
      have hstamp := congrArg Event.timestamp he
      by_contra hform
      simp only [Rendering.readEvent, SystemRecord.event, if_neg hform] at hstamp
      contradiction
    have hstamp : timestamp = some record.created.sinceEpoch := by
      have hstamp := congrArg Event.timestamp he
      simpa only [Rendering.readEvent, SystemRecord.event, if_pos hopen] using hstamp
    exact ⟨hprovider.mp (congrArg Event.provider he), ⟨hopen, htime.mp hstamp⟩, hexecution,
      hchannel.mp (congrArg Event.channel he), hcomputer.mp (congrArg Event.computer he)⟩
  · intro hkept
    have hlast₁ : lastRun r.channel = record.channel := hchannel.mpr hkept.channel
    have hlast₂ : lastRun r.computer = record.computer := hcomputer.mpr hkept.computer
    rw [Rendering.readEvent, hprovider.mpr hkept.provider, hlast₁, hlast₂, if_pos hkept.time.1,
      htime.mpr hkept.time.2, if_pos hkept.execution, if_pos hkept.execution]
    rfl

def logonRecord : SystemRecord where
  provider := "Security".toList
  created :=
    { date := ⟨2024, 1, 15, by decide, by decide, by decide⟩
      hour := 10
      minute := 30
      second := 45
      ticks := 1234560
      hour_lt := by decide
      minute_lt := by decide
      second_lt := by decide
      ticks_lt := by decide }
  id := 4624
  level := .auditSuccess
  channel := "Security".toList
  computer := "DC-1".toList
  recordId := 9
  processId := 4
  threadId := 8
  created_range := by decide

def logonRendering (provider time execution : ElementForm) : Rendering where
  rootAttributes := []
  providerForm := provider
  timeForm := time
  executionForm := execution
  providerAttributes := [("Name".toList, unescaped "Security".toList)]
  timeAttributes :=
    [("SystemTime".toList, unescaped (timeText logonRecord.created "123456".toList))]
  executionAttributes := [("ThreadID".toList, unescaped "8".toList),
    ("ProcessID".toList, unescaped "4".toList)]
  idAttributes := []
  provider := unescaped "Security".toList
  channel := unescaped "Security".toList
  computer := unescaped "DC-1".toList
  fraction := "123456".toList

theorem logonRendering_states (provider time execution : ElementForm) :
    (logonRendering provider time execution).States logonRecord.toSystemFields where
  provider := rfl
  channel := rfl
  computer := rfl
  fraction := by
    have hdigits : ∀ c ∈ "123456".toList, c.isDigit = true := forall_mem_of_all (by decide)
    have hvalue : digitsValue 10 0 "123456".toList = some 123456 := by decide
    have hscale : 123456*10^7 = 1234560*10^"123456".toList.length := by decide
    exact ⟨hdigits, 123456, hvalue, hscale⟩
  name := ⟨mem_cons_self, show ["Name".toList].Nodup by decide⟩
  systemTime := ⟨mem_cons_self, show ["SystemTime".toList].Nodup by decide⟩
  processId := ⟨mem_cons_of_mem _ mem_cons_self,
    show ["ThreadID".toList, "ProcessID".toList].Nodup by decide⟩
  threadId := ⟨mem_cons_self, show ["ThreadID".toList, "ProcessID".toList].Nodup by decide⟩

def logonTokens (provider time execution : ElementForm) : List XmlToken :=
  (logonRendering provider time execution).tokens logonRecord.toSystemFields
    logonRecord.level.code

theorem event_xml_round_trip_logon :
    parseEventXmlWithQuickXml (logonTokens .openClose .openClose .selfClosing) =
      .ok logonRecord.event := by
  apply (event_xml_round_trip_iff _ logonRecord (logonRendering_states _ _ _)).mpr
  exact ⟨⟨Or.inl rfl, rfl⟩, ⟨rfl, by decide, Or.inr (Or.inr ⟨by decide, by decide⟩)⟩, rfl,
    ⟨rfl, rfl⟩, ⟨rfl, rfl⟩⟩

/-- With all three elements self-closing the provider and the time are not seen. -/
theorem event_xml_self_closing_loses_provider :
    (logonRendering .selfClosing .selfClosing .selfClosing).States logonRecord.toSystemFields ∧
      parseEventXmlWithQuickXml (logonTokens .selfClosing .selfClosing .selfClosing) =
        .ok { logonRecord.event with provider := [], timestamp := none } ∧
      parseEventXmlWithQuickXml (logonTokens .selfClosing .selfClosing .selfClosing) ≠
        .ok logonRecord.event := by
  have hread : parseEventXmlWithQuickXml (logonTokens .selfClosing .selfClosing .selfClosing) =
      .ok { logonRecord.event with provider := [], timestamp := none } := rfl
  refine ⟨logonRendering_states _ _ _, hread, ?_⟩
  rw [hread]
  intro he
  have hprovider := congrArg Event.provider (Except.ok.inj he)
  exact absurd hprovider (by decide)

end WindowsErg.Evt
