import WindowsErg.EvtQuery
import WindowsErg.EvtTimestamp
import WindowsErg.XmlTokens

/-! Reading an event from its XML, `src/evt/render.rs`. The reader delivers the text as tokens. -/
namespace WindowsErg.Evt
open TextScan XmlTokens

def EventLevel.fromCode (code : UInt8) : Option EventLevel :=
  match code.toNat with
  | 0 => some .auditSuccess
  | 1 => some .auditFailure
  | 2 => some .critical
  | 3 => some .error
  | 4 => some .warning
  | 5 => some .informational
  | 6 => some .verbose
  | _ => none

structure Event where
  id : UInt32 := 0
  level : EventLevel := .informational
  provider : Text := []
  channel : Text := []
  computer : Text := []
  timestamp : Option ℤ := none
  recordId : Option UInt64 := none
  processId : Option UInt32 := none
  threadId : Option UInt32 := none
  data : Option (List (Text × Text)) := none
  formattedMessage : Option Text := none
  deriving DecidableEq

structure CorruptedEvent where
  recordId : Option UInt64
  component : Text
  reason : Text
  deriving DecidableEq

inductive RenderFault where
  | corrupted (event : CorruptedEvent)
  | panic (cause : Panic)
  deriving DecidableEq

structure XmlState where
  event : Event
  currentTag : Text
  inSystem : Bool

def providerAttribute (event : Event) : Option (Text × Text) → Event
  | some (key, value) => if key = "Name".toList then { event with provider := value } else event
  | none => event

def timeCreatedAttribute (event : Event) : Option (Text × Text) → Except RenderFault Event
  | some (key, value) =>
    if key = "SystemTime".toList then
      match parseIso8601Timestamp value with
      | .ok timestamp => .ok { event with timestamp := timestamp }
      | .error cause => .error (.panic cause)
    else .ok event
  | none => .ok event

def parseNumber (bound : ℕ) (value : Text) : Option ℕ := fromStrRadix 10 bound value

def executionAttribute (event : Event) : Option (Text × Text) → Event
  | some (key, value) =>
    if key = "ProcessID".toList then
      match parseNumber (2^32) value with
      | some pid => { event with processId := some (UInt32.ofNat pid) }
      | none => event
    else if key = "ThreadID".toList then
      match parseNumber (2^32) value with
      | some tid => { event with threadId := some (UInt32.ofNat tid) }
      | none => event
    else event
  | none => event

def textField (tag : Text) (event : Event) (value : Text) : Event :=
  if tag = "EventID".toList then
    { event with id := UInt32.ofNat ((parseNumber (2^32) value).getD 0) }
  else if tag = "Level".toList then
    let code := UInt8.ofNat ((parseNumber (2^8) value).getD 4)
    { event with level := (EventLevel.fromCode code).getD .verbose }
  else if tag = "Channel".toList then { event with channel := value }
  else if tag = "Computer".toList then { event with computer := value }
  else if tag = "EventRecordID".toList then
    match parseNumber (2^64) value with
    | some rid => { event with recordId := some (UInt64.ofNat rid) }
    | none => event
  else event

def startAttributes (tag : Text) (event : Event) (attributes : Attributes) :
    Except RenderFault Event :=
  if tag = "Provider".toList then .ok (attributes.foldl providerAttribute event)
  else if tag = "TimeCreated".toList then attributes.foldlM timeCreatedAttribute event
  else .ok event

def XmlState.step (st : XmlState) : XmlToken → Except RenderFault XmlState
  | .start name attributes =>
    if name = "System".toList then .ok { st with inSystem := true }
    else if st.inSystem then do
      let event ← startAttributes name st.event attributes
      pure ⟨event, name, true⟩
    else .ok st
  | .endTag name =>
    .ok ⟨st.event, [], if name = "System".toList then false else st.inSystem⟩
  | .text value =>
    .ok (if st.inSystem ∧ st.currentTag ≠ [] then
      { st with event := textField st.currentTag st.event value } else st)
  | .empty name attributes =>
    .ok (if st.inSystem ∧ name = "Execution".toList then
      { st with event := attributes.foldl executionAttribute st.event } else st)
  | .generalRef _ | .other => .ok st
  | .malformed => .error (.corrupted ⟨st.event.recordId, "quick-xml".toList,
      "XML parsing error".toList⟩)

def XmlState.run (st : XmlState) (tokens : List XmlToken) : Except RenderFault XmlState :=
  tokens.foldlM XmlState.step st

def parseEventXmlWithQuickXml (tokens : List XmlToken) : Except RenderFault Event :=
  (XmlState.run ⟨{}, [], false⟩ tokens).map (·.event)

structure DataState where
  dataFields : List (Text × Text)
  inEventData : Bool
  currentFieldName : Option Text

def nameAttribute (attributes : Attributes) : Option Text :=
  (attributes.reduceOption.find? (·.1 = "Name".toList)).map (·.2)

def DataState.step (st : DataState) : XmlToken → DataState
  | .start name attributes =>
    if name = "EventData".toList then { st with inEventData := true }
    else if st.inEventData ∧ name = "Data".toList then
      { st with currentFieldName := nameAttribute attributes }
    else st
  | .endTag name => if name = "EventData".toList then { st with inEventData := false } else st
  | .text value =>
    match st.inEventData, st.currentFieldName with
    | true, some field =>
      ⟨(field, value) :: st.dataFields.filter (·.1 ≠ field), true, none⟩
    | _, _ => st
  | _ => st

/-- A malformed text ends the search without an error. -/
def extractEventDataFromXml (tokens : List XmlToken) : Option (List (Text × Text)) :=
  let readable := tokens.takeWhile (· ≠ .malformed)
  let st := readable.foldl DataState.step ⟨[], false, none⟩
  if st.dataFields = [] then none else some st.dataFields

end WindowsErg.Evt
