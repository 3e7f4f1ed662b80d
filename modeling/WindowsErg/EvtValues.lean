import WindowsErg.EvtXmlRoundTrip
import WindowsErg.UnicodeText

/-! Reading an event from its rendered values, `render_event_values` of `src/evt/render.rs`, beside
the XML of the same event. -/
namespace WindowsErg.Evt
open List TextScan UnicodeText XmlTokens CivilCalendar

/-- An `EVT_VARIANT`: its type, the bits of the union, and the units at the address that the bits
are if the value is a string. -/
structure EvtVariant where
  type : UInt32
  bits : UInt64
  units : List UInt16 := []

def extractU8FromVariant (variant : EvtVariant) : Option UInt8 :=
  if variant.type = 2 then some variant.bits.toUInt8 else none

def extractU32FromVariant (variant : EvtVariant) : Option UInt32 :=
  if variant.type = 8 then some variant.bits.toUInt32 else none

def extractU64FromVariant (variant : EvtVariant) : Option UInt64 :=
  if variant.type = 10 then some variant.bits else none

def extractStringFromVariant (variant : EvtVariant) : Option Text :=
  if variant.type = 21 ∧ variant.bits ≠ 0 then
    some (decodeUtf16Lossy (variant.units.takeWhile (· ≠ 0)))
  else none

def filetimeEpochDiff : ℕ := 116444736000000000

def extractSystemtimeFromVariant (variant : EvtVariant) : Option ℤ :=
  if variant.type = 29 ∧ filetimeEpochDiff < variant.bits.toNat then
    let unixTime := variant.bits.toNat-filetimeEpochDiff
    let seconds := unixTime/10000000
    let nanos := unixTime%10000000*100
    some ((seconds*10000000 + nanos/100 : ℕ) : ℤ)
  else none

def atPosition (variants : List EvtVariant) (position : ℕ) (update : EvtVariant → Event → Event)
    (event : Event) : Event :=
  match variants[position]? with
  | some variant => update variant event
  | none => event

def whenSome {α : Type} (extract : EvtVariant → Option α) (set : α → Event → Event)
    (variant : EvtVariant) (event : Event) : Event :=
  match extract variant with
  | some value => set value event
  | none => event

def readValues (variants : List EvtVariant) : Event :=
  let event : Event := {}
  let event := atPosition variants 0 (fun variant event =>
    { event with id := (extractU32FromVariant variant).getD 0 }) event
  let event := atPosition variants 1 (fun variant event =>
    let code := (extractU8FromVariant variant).getD 4
    { event with level := (EventLevel.fromCode code).getD .verbose }) event
  let event := atPosition variants 2 (whenSome extractStringFromVariant fun provider event =>
    { event with provider := provider }) event
  let event := atPosition variants 3 (whenSome extractStringFromVariant fun channel event =>
    { event with channel := channel }) event
  let event := atPosition variants 4 (whenSome extractStringFromVariant fun computer event =>
    { event with computer := computer }) event
  let event := atPosition variants 5 (whenSome extractSystemtimeFromVariant fun time event =>
    { event with timestamp := some time }) event
  let event := atPosition variants 6 (whenSome extractU64FromVariant fun rid event =>
    { event with recordId := some rid }) event
  let event := atPosition variants 7 (whenSome extractU32FromVariant fun pid event =>
    { event with processId := some pid }) event
  let event := atPosition variants 8 (whenSome extractU32FromVariant fun tid event =>
    { event with threadId := some tid }) event
  if 9 < variants.length then { event with data := some [] } else event

def renderEventValues : Option (List EvtVariant) → Except RenderFault Event
  | none => .error (.corrupted ⟨none, "EvtRender_Values".toList,
      "Failed to render event values".toList⟩)
  | some variants => .ok (readValues variants)

inductive RenderFormat where
  | values
  | xml
  deriving DecidableEq, Repr

structure EvtRenderAnswers where
  values : Option (List EvtVariant)
  xml : Option (List UInt16)
  xmlAgain : Option (List UInt16)
  message : Option Text

section Render
variable (reader : Text → List XmlToken)

def renderEventXml : Option (List UInt16) → Except RenderFault Event
  | none => .error (.corrupted ⟨none, "EvtRender_Xml".toList,
      "Failed to render event as XML".toList⟩)
  | some units => parseEventXmlWithQuickXml (reader (decodeUtf16Lossy units))

def addEventData (answer : Option (List UInt16)) (event : Event) : Event :=
  match answer with
  | some units =>
    { event with data := extractEventDataFromXml (reader (decodeUtf16Lossy units)) }
  | none => event

def renderFormat (answers : EvtRenderAnswers) : RenderFormat → Except RenderFault Event
  | .values => renderEventValues answers.values
  | .xml => renderEventXml reader answers.xml

def renderEvent (answers : EvtRenderAnswers) (format : RenderFormat)
    (includeEventData parseMessage : Bool) : Except RenderFault Event := do
  let event ← renderFormat reader answers format
  let event := if includeEventData ∧ format = .xml then addEventData reader answers.xmlAgain event
    else event
  pure (if parseMessage then { event with formattedMessage := answers.message } else event)

end Render

structure SameSystemFields (event event' : Event) : Prop where
  id : event.id = event'.id
  level : event.level = event'.level
  provider : event.provider = event'.provider
  channel : event.channel = event'.channel
  computer : event.computer = event'.computer
  timestamp : event.timestamp = event'.timestamp
  recordId : event.recordId = event'.recordId
  processId : event.processId = event'.processId
  threadId : event.threadId = event'.threadId

/-- An event with the other properties of its system part. A property that an event lacks has no
value. -/
structure EventProperties extends SystemFields where
  level : UInt8
  version : UInt8
  opcode : UInt8
  task : UInt16
  qualifiers : Option UInt16
  keywords : UInt64
  providerGuid : Option UInt64
  activityId : Option UInt64
  relatedActivityId : Option UInt64
  userId : Option UInt64
  id_lt : id.toNat < 2^16

def stringVariant (address : Text → UInt64) (s : Text) : EvtVariant :=
  ⟨1, address s, encodeUtf16 s ++ [0]⟩

def byteVariant (value : UInt8) : EvtVariant := ⟨4, value.toUInt64, []⟩
def uint16Variant (value : UInt16) : EvtVariant := ⟨6, value.toUInt64, []⟩
def uint32Variant (value : UInt32) : EvtVariant := ⟨8, value.toUInt64, []⟩
def uint64Variant (value : UInt64) : EvtVariant := ⟨10, value, []⟩
def guidVariant (address : UInt64) : EvtVariant := ⟨15, address, []⟩
def sidVariant (address : UInt64) : EvtVariant := ⟨19, address, []⟩
def hexInt64Variant (value : UInt64) : EvtVariant := ⟨21, value, []⟩

def fileTimeVariant (time : CivilTime) : EvtVariant :=
  ⟨17, UInt64.ofNat (time.sinceEpoch+filetimeEpochDiff).toNat, []⟩

def optionalVariant {α : Type} (variant : α → EvtVariant) (value : Option α) : EvtVariant :=
  value.elim ⟨0, 0, []⟩ variant

def EventProperties.variants (event : EventProperties) (address : Text → UInt64) :
    List EvtVariant :=
  [stringVariant address event.provider, optionalVariant guidVariant event.providerGuid,
    uint16Variant event.id.toUInt16, optionalVariant uint16Variant event.qualifiers,
    byteVariant event.level, uint16Variant event.task, byteVariant event.opcode,
    hexInt64Variant event.keywords, fileTimeVariant event.created,
    uint64Variant event.recordId, optionalVariant guidVariant event.activityId,
    optionalVariant guidVariant event.relatedActivityId, uint32Variant event.processId,
    uint32Variant event.threadId, stringVariant address event.channel,
    stringVariant address event.computer, optionalVariant sidVariant event.userId,
    byteVariant event.version]

theorem readValues_variants (event : EventProperties) (address : Text → UInt64) :
    readValues (event.variants address) = { level := .warning, data := some [] } := by
  have hlevel : extractU8FromVariant (optionalVariant guidVariant event.providerGuid) = none := by
    cases event.providerGuid <;> rfl
  have hchannel :
      extractStringFromVariant (optionalVariant uint16Variant event.qualifiers) = none := by
    cases event.qualifiers <;> rfl
  have htime : extractSystemtimeFromVariant (uint16Variant event.task) = none :=
    if_neg fun h => absurd (show (6 : UInt32) = 29 from h.1) (by decide)
  unfold readValues EventProperties.variants
  simp only [atPosition, whenSome, List.getElem?_cons_zero, List.getElem?_cons_succ, hlevel,
    hchannel, htime]
  rfl

theorem renderEvent_ok (reader : Text → List XmlToken) (answers : EvtRenderAnswers)
    (format : RenderFormat) (includeEventData parseMessage : Bool) {event : Event}
    (hformat : renderFormat reader answers format = .ok event) :
    ∃ event', renderEvent reader answers format includeEventData parseMessage = .ok event' ∧
      SameSystemFields event' event := by
  unfold renderEvent
  rw [hformat]
  refine ⟨_, rfl, ?_⟩
  have hdata (answer : Option (List UInt16)) :
      SameSystemFields (addEventData reader answer event) event := by
    cases answer <;> exact ⟨rfl, rfl, rfl, rfl, rfl, rfl, rfl, rfl, rfl⟩
  have hmessage {event' : Event} (h : SameSystemFields event' event) :
      SameSystemFields (if parseMessage then { event' with formattedMessage := answers.message }
        else event') event := by
    split_ifs
    · exact ⟨h.id, h.level, h.provider, h.channel, h.computer, h.timestamp, h.recordId,
        h.processId, h.threadId⟩
    · exact h
  apply hmessage
  split_ifs
  · exact hdata answers.xmlAgain
  · exact ⟨rfl, rfl, rfl, rfl, rfl, rfl, rfl, rfl, rfl⟩

/-- The two formats agree for no event: the values never have a record id, the XML always does. -/
theorem render_formats_disagree (event : EventProperties) (r : Rendering)
    (h : r.States event.toSystemFields) (address : Text → UInt64) (units : List UInt16)
    (trailing : List Text) (reader : Text → List XmlToken)
    (hreader : reader (decodeUtf16Lossy units) =
      r.tokens event.toSystemFields event.level.toNat ++ trailing.map .text)
    (answers : EvtRenderAnswers) (hvalues : answers.values = some (event.variants address))
    (hxml : answers.xml = some units) (includeEventData parseMessage : Bool) :
    ∃ values xml, renderEvent reader answers .values includeEventData parseMessage = .ok values ∧
      renderEvent reader answers .xml includeEventData parseMessage = .ok xml ∧
      ¬ SameSystemFields values xml := by
  obtain ⟨timestamp, hparse⟩ :=
    exists_parseIso8601Timestamp event.created r.fraction h.fraction.digits
  have hread := parse_tokens r event.toSystemFields h event.level.toNat_lt timestamp trailing hparse
  have hvaluesEvent : renderEventValues answers.values =
      .ok { level := .warning, data := some [] } := by
    rw [hvalues, renderEventValues, readValues_variants]
  have hxmlEvent : renderEventXml reader answers.xml =
      .ok (r.readEvent event.toSystemFields (readLevel event.level.toNat) timestamp) := by
    rw [hxml, renderEventXml, hreader, hread]
  obtain ⟨values, hvaluesOk, hvaluesSame⟩ :=
    renderEvent_ok reader answers .values includeEventData parseMessage hvaluesEvent
  obtain ⟨xml, hxmlOk, hxmlSame⟩ :=
    renderEvent_ok reader answers .xml includeEventData parseMessage hxmlEvent
  refine ⟨values, xml, hvaluesOk, hxmlOk, ?_⟩
  intro hsame
  have hnone : (none : Option UInt64) = some event.recordId := by
    calc none = values.recordId := hvaluesSame.recordId.symm
      _ = xml.recordId := hsame.recordId
      _ = some event.recordId := hxmlSame.recordId
  contradiction

def logonProperties : EventProperties :=
  { logonRecord.toSystemFields with
    level := 0
    version := 0
    opcode := 0
    task := 0
    qualifiers := none
    keywords := 0
    providerGuid := none
    activityId := none
    relatedActivityId := none
    userId := none
    id_lt := by decide }

def logonXml : Text :=
  ("<Event><System><Provider Name='Security'></Provider><EventID>4624</EventID><Level>0</Level>" ++
    "<TimeCreated SystemTime='2024-01-15T10:30:45.123456Z'></TimeCreated>" ++
    "<EventRecordID>9</EventRecordID><Execution ThreadID='8' ProcessID='4'/>" ++
    "<Channel>Security</Channel><Computer>DC-1</Computer></System></Event>").toList

def logonReader (xml : Text) : List XmlToken :=
  if xml = logonXml then logonTokens .openClose .openClose .selfClosing else [.malformed]

theorem logonReader_logonXml : logonReader (decodeUtf16Lossy (encodeUtf16 logonXml)) =
    logonTokens .openClose .openClose .selfClosing := by
  rw [decodeUtf16Lossy_encodeUtf16, logonReader, if_pos rfl]

def logonAnswers : EvtRenderAnswers where
  values := some (logonProperties.variants fun _ => 4096)
  xml := some (encodeUtf16 logonXml)
  xmlAgain := none
  message := none

theorem render_formats_disagree_logon :
    ∃ values xml, renderEvent logonReader logonAnswers .values false false = .ok values ∧
      renderEvent logonReader logonAnswers .xml false false = .ok xml ∧
      ¬ SameSystemFields values xml :=
  render_formats_disagree logonProperties _
    (logonRendering_states .openClose .openClose .selfClosing) (fun _ => 4096)
    (encodeUtf16 logonXml) [] logonReader
    (logonReader_logonXml.trans (append_nil _).symm) logonAnswers rfl rfl false false

/-- The XML gives the logon, the values give none of it. -/
theorem render_values_loses_logon :
    renderEvent logonReader logonAnswers .xml false false = .ok logonRecord.event ∧
      renderEvent logonReader logonAnswers .values false false =
        .ok { level := .warning, data := some [] } ∧
      ¬ SameSystemFields { level := .warning, data := some [] } logonRecord.event := by
  have hstates := logonRendering_states .openClose .openClose .selfClosing
  have hparse := (parseIso8601Timestamp_timeText_iff logonRecord.created _ hstates.fraction).mpr
    ⟨by decide, Or.inr (Or.inr ⟨by decide, by decide⟩)⟩
  have hread := parse_tokens _ _ hstates (EventLevel.code_lt .auditSuccess) _ [] hparse
  have hxml : renderFormat logonReader logonAnswers .xml = .ok logonRecord.event := by
    rw [map_nil, append_nil] at hread
    change parseEventXmlWithQuickXml (logonReader (decodeUtf16Lossy (encodeUtf16 logonXml))) = _
    rw [logonReader_logonXml]
    exact hread
  have hvalues : renderFormat logonReader logonAnswers .values =
      .ok { level := .warning, data := some [] } := by
    change renderEventValues (some (logonProperties.variants fun _ => 4096)) = _
    rw [renderEventValues, readValues_variants]
  refine ⟨?_, ?_, ?_⟩
  · rw [renderEvent, hxml]
    rfl
  · rw [renderEvent, hvalues]
    rfl
  · intro hsame
    exact absurd hsame.recordId (by decide)

end WindowsErg.Evt
