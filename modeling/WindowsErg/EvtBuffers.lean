import WindowsErg.EvtQueryRender

/-! Events that are too large for the fixed buffers of `src/evt/render.rs` and `src/evt/mod.rs`. -/
namespace WindowsErg.Evt
open List TextScan UnicodeText XmlTokens

def evtRender {α : Type} (needed bufferSize : ℕ) (content : α) : Option α :=
  if needed ≤ bufferSize then some content else none

theorem evtRender_eq_some_iff {α : Type} {needed bufferSize : ℕ} {content found : α} :
    evtRender needed bufferSize content = some found ↔ needed ≤ bufferSize ∧ content = found := by
  rw [evtRender, Option.ite_none_right_eq_some, Option.some.injEq]

/-- What the system has of an event; `valuesSize` is the size of the values in bytes, with the
strings that they point to. -/
structure StoredEvent where
  values : List EvtVariant
  valuesSize : ℕ
  xml : List UInt16
  message : Option Text

namespace StoredEvent

def xmlSize (event : StoredEvent) : ℕ := 2*event.xml.length

def answers (event : StoredEvent) (valuesBuffer xmlBuffer : ℕ) : EvtRenderAnswers where
  values := evtRender event.valuesSize valuesBuffer event.values
  xml := evtRender event.xmlSize xmlBuffer event.xml
  xmlAgain := evtRender event.xmlSize xmlBuffer event.xml
  message := event.message

end StoredEvent

def valuesBufferSize : ℕ := 8192

def xmlBufferSize : ℕ := 16384

section Batches
variable (reader : Text → List XmlToken) (settings : QuerySettings)

def boundedRender (event : StoredEvent) : Except RenderFault Event :=
  settings.render reader (event.answers valuesBufferSize xmlBufferSize)

def ampleRender (event : StoredEvent) : Except RenderFault Event :=
  settings.render reader (event.answers event.valuesSize event.xmlSize)

def boundedXml (event : StoredEvent) : Option Text :=
  (evtRender event.xmlSize xmlBufferSize event.xml).map decodeUtf16Lossy

def HasRequestedData (event : StoredEvent) (shown : Event) : Prop :=
  settings.includeEventData = true → ∀ fields, eventDataOf reader (some event.xml) = some fields →
    shown.data = some fields

/-- Among any other events of a batch, the event is handed out by all three calls, with its event
data, and is not reported. -/
structure Delivered {T : Type} (deserialize : Text → Option T) (event : StoredEvent) (value : T) :
    Prop where
  nextBatch : ∀ (front back : List StoredEvent) (query : EventQuery StoredEvent RenderFault),
    let render := boundedRender reader settings
    ∃ shown, (query.nextBatch render (.ok (front ++ event :: back))).1 =
        .ok (rendered render front ++ shown :: rendered render back) ∧
      (query.nextBatch render (.ok (front ++ event :: back))).2.corrupted =
        query.corrupted ++ failures render (front ++ back) ∧
      HasRequestedData reader settings event shown
  nextBatchWithResults :
    ∀ (front back : List StoredEvent) (query : EventQuery StoredEvent RenderFault),
    let render := boundedRender reader settings
    ∃ shown, (query.nextBatchWithResults render (.ok (front ++ event :: back))).1 =
        .ok (front.map render ++ .ok shown :: back.map render) ∧
      HasRequestedData reader settings event shown
  nextBatchDeserialize :
    ∀ (front back : List StoredEvent) (query : EventQuery StoredEvent RenderFault),
    (query.nextBatchDeserialize boundedXml deserialize (.ok (front ++ event :: back))).1 =
      .ok (front.filterMap (fun event => (boundedXml event).bind deserialize) ++
        value :: back.filterMap fun event => (boundedXml event).bind deserialize)

theorem renderEvent_data {answers : EvtRenderAnswers} {format : RenderFormat} {event : Event}
    (includeEventData parseMessage : Bool)
    (h : renderFormat reader answers format = .ok event) :
    ∃ shown, renderEvent reader answers format includeEventData parseMessage = .ok shown ∧
      shown.data = (if includeEventData ∧ format = .xml then
        addEventData reader answers.xmlAgain event else event).data := by
  unfold renderEvent
  rw [h]
  refine ⟨_, rfl, ?_⟩
  cases parseMessage with
  | true => rfl
  | false => rfl

theorem renderEvent_error {answers : EvtRenderAnswers} {format : RenderFormat} {fault : RenderFault}
    (includeEventData parseMessage : Bool)
    (h : renderFormat reader answers format = .error fault) :
    renderEvent reader answers format includeEventData parseMessage = .error fault := by
  rw [renderEvent, h]
  rfl

def Shows (event : StoredEvent) : Prop :=
  ∃ shown, boundedRender reader settings event = .ok shown ∧
    HasRequestedData reader settings event shown

variable {reader settings} {event : StoredEvent}

theorem not_shows_of_error (h : ∃ fault,
    renderFormat reader (event.answers valuesBufferSize xmlBufferSize) settings.renderFormat =
      .error fault) : ¬ Shows reader settings event := by
  rintro ⟨shown, hshown, -⟩
  obtain ⟨fault, h⟩ := h
  rw [boundedRender, QuerySettings.render, renderEvent_error reader _ _ h] at hshown
  cases hshown

theorem shows_values_iff (hformat : settings.renderFormat = .values) :
    Shows reader settings event ↔ event.valuesSize ≤ valuesBufferSize ∧
      (settings.includeEventData = true → eventDataOf reader (some event.xml) = none) := by
  by_cases hsize : event.valuesSize ≤ valuesBufferSize
  · have hvalues : (event.answers valuesBufferSize xmlBufferSize).values = some event.values :=
      evtRender_eq_some_iff.mpr ⟨hsize, rfl⟩
    have hok : renderFormat reader (event.answers valuesBufferSize xmlBufferSize)
        settings.renderFormat = .ok (readValues event.values) := by
      rw [hformat, renderFormat, hvalues, renderEventValues]
    obtain ⟨shown, hshown, hdata⟩ :=
      renderEvent_data reader settings.includeEventData settings.parseMessage hok
    rw [hformat, if_neg (fun hboth => by cases hboth.2)] at hdata
    rw [and_iff_right hsize]
    constructor
    · rintro ⟨shown', hshown', hrequested⟩ hcase
      obtain rfl : shown = shown' := Except.ok.inj (hshown.symm.trans hshown')
      by_contra havailable
      obtain ⟨fields, hfields⟩ := Option.ne_none_iff_exists'.mp havailable
      exact readValues_data_ne event.values hfields (hdata.symm.trans (hrequested hcase fields hfields))
    · intro hnone
      refine ⟨shown, hshown, ?_⟩
      intro hcase fields hfields
      rw [hnone hcase] at hfields
      cases hfields
  · have hvalues : (event.answers valuesBufferSize xmlBufferSize).values = none := if_neg hsize
    apply iff_of_false
    · apply not_shows_of_error
      rw [hformat, renderFormat, hvalues, renderEventValues]
      exact ⟨_, rfl⟩
    · exact fun hboth => hsize hboth.1

theorem shows_xml_iff (hformat : settings.renderFormat = .xml)
    (hrender : ∃ shown, ampleRender reader settings event = .ok shown) :
    Shows reader settings event ↔ event.xmlSize ≤ xmlBufferSize := by
  by_cases hsize : event.xmlSize ≤ xmlBufferSize
  · refine iff_of_true ?_ hsize
    have hxml : evtRender event.xmlSize xmlBufferSize event.xml = some event.xml :=
      evtRender_eq_some_iff.mpr ⟨hsize, rfl⟩
    have hample : evtRender event.xmlSize event.xmlSize event.xml = some event.xml :=
      evtRender_eq_some_iff.mpr ⟨le_rfl, rfl⟩
    -- XML that cannot be read would not be rendered in any buffer
    obtain ⟨read, hread⟩ : ∃ read, renderEventXml reader (some event.xml) = .ok read := by
      cases hcase : renderEventXml reader (some event.xml) with
      | ok read => exact ⟨read, rfl⟩
      | error fault =>
        obtain ⟨shown, hshown⟩ := hrender
        have herror : renderFormat reader (event.answers event.valuesSize event.xmlSize)
            settings.renderFormat = .error fault := by
          rw [hformat, renderFormat, StoredEvent.answers, hample, hcase]
        rw [ampleRender, QuerySettings.render, renderEvent_error reader _ _ herror] at hshown
        cases hshown
    have hok : renderFormat reader (event.answers valuesBufferSize xmlBufferSize)
        settings.renderFormat = .ok read := by
      rw [hformat, renderFormat, StoredEvent.answers, hxml, hread]
    obtain ⟨shown, hshown, hdata⟩ :=
      renderEvent_data reader settings.includeEventData settings.parseMessage hok
    refine ⟨shown, hshown, ?_⟩
    intro hcase fields hfields
    -- the second rendering, for the event data, has a buffer of the same size
    rw [if_pos ⟨hcase, hformat⟩, StoredEvent.answers, hxml] at hdata
    rw [hdata]
    exact hfields
  · have hxml : (event.answers valuesBufferSize xmlBufferSize).xml = none := if_neg hsize
    apply iff_of_false
    · apply not_shows_of_error
      rw [hformat, renderFormat, hxml, renderEventXml]
      exact ⟨_, rfl⟩
    · exact hsize

section
variable {T : Type} {deserialize : Text → Option T} {value : T}
    (hdeserialize : deserialize (decodeUtf16Lossy event.xml) = some value)
include hdeserialize

theorem boundedXml_bind :
    (boundedXml event).bind deserialize =
      if event.xmlSize ≤ xmlBufferSize then some value else none := by
  unfold boundedXml evtRender
  split_ifs
  · exact hdeserialize
  · rfl

theorem delivered_iff_shows :
    Delivered reader settings deserialize event value ↔
      Shows reader settings event ∧ event.xmlSize ≤ xmlBufferSize := by
  have hbind := boundedXml_bind hdeserialize
  constructor
  · intro h
    constructor
    · -- a batch of the event alone says what it is rendered as
      obtain ⟨shown, hout, -, hdata⟩ := h.nextBatch [] [] {}
      rw [EventQuery.nextBatch_ok] at hout
      refine ⟨shown, ?_, hdata⟩
      have hrendered : rendered (boundedRender reader settings) [event] = [shown] :=
        Except.ok.inj hout
      cases hcase : boundedRender reader settings event with
      | ok event' =>
        simp only [rendered, filterMap_cons, hcase, Except.toOption, filterMap_nil,
          List.cons.injEq, and_true] at hrendered
        rw [hrendered]
      | error fault =>
        simp [rendered, hcase, Except.toOption] at hrendered
    · by_contra hlarge
      rw [if_neg hlarge] at hbind
      have hout := h.nextBatchDeserialize [] [] {}
      rw [EventQuery.nextBatchDeserialize_out] at hout
      simp [hbind] at hout
  · rintro ⟨⟨shown, hshown, hdata⟩, hsize⟩
    rw [if_pos hsize] at hbind
    refine ⟨?_, ?_, ?_⟩
    · intro front back query
      refine ⟨shown, ?_, ?_, hdata⟩
      · rw [EventQuery.nextBatch_ok, rendered, filterMap_append, filterMap_cons, hshown]
        rfl
      · rw [EventQuery.nextBatch_ok, EventQuery.after, failures, filterMap_append,
          filterMap_cons, failure, hshown, failures, filterMap_append]
    · intro front back query
      refine ⟨shown, ?_, hdata⟩
      rw [EventQuery.nextBatchWithResults_out, map_append, map_cons, hshown]
    · intro front back query
      rw [EventQuery.nextBatchDeserialize_out, filterMap_append, filterMap_cons, hbind]

end

/-- An event that large enough buffers would render is handed out by all three calls exactly if
its XML fits and, in the format of values, so do the values and there are no event data to show.
-/
theorem stored_event_delivered_iff {T : Type} (reader : Text → List XmlToken)
    (settings : QuerySettings) (deserialize : Text → Option T) (event : StoredEvent) (value : T)
    (hrender : ∃ shown, ampleRender reader settings event = .ok shown)
    (hdeserialize : deserialize (decodeUtf16Lossy event.xml) = some value) :
    Delivered reader settings deserialize event value ↔
      event.xmlSize ≤ xmlBufferSize ∧
        (settings.renderFormat = .values → event.valuesSize ≤ valuesBufferSize ∧
          (settings.includeEventData = true → eventDataOf reader (some event.xml) = none)) := by
  rw [delivered_iff_shows hdeserialize, and_comm]
  apply and_congr_right
  intro hsize
  cases hformat : settings.renderFormat with
  | values =>
    rw [shows_values_iff hformat]
    simp
  | xml =>
    rw [shows_xml_iff hformat hrender]
    simp [hsize]

end Batches

def sizedEvent (valuesSize : ℕ) : StoredEvent := ⟨[], valuesSize, [], none⟩

theorem stored_event_delivered_small :
    Delivered (fun _ => []) {} some (sizedEvent 8192) [] :=
  (stored_event_delivered_iff (fun _ => []) {} some (sizedEvent 8192) [] ⟨_, rfl⟩ rfl).mpr
    ⟨by decide, fun _ => ⟨by decide, nofun⟩⟩

def blankEvent (units : ℕ) : StoredEvent := ⟨[], 0, List.replicate units 32, none⟩

theorem boundedXml_blankEvent {units : ℕ} (h : 8192 < units) :
    boundedXml (blankEvent units) = none := by
  have hsize : (blankEvent units).xmlSize = 2*units := by
    rw [StoredEvent.xmlSize, blankEvent, length_replicate]
  have hlarge : ¬ (blankEvent units).xmlSize ≤ xmlBufferSize := by
    rw [hsize, xmlBufferSize]
    omega
  rw [boundedXml, evtRender, if_neg hlarge]
  rfl

def valuesFault : RenderFault :=
  .corrupted ⟨none, "EvtRender_Values".toList, "Failed to render event values".toList⟩

/-- With one byte too many in its values an event is reported as corrupted; with one unit too many in
its XML it is skipped by `next_batch_deserialize`. -/
theorem stored_event_lost_by_size :
    (∃ shown, ampleRender (fun _ => []) {} (sizedEvent 8193) = .ok shown) ∧
      EventQuery.nextBatch (boundedRender (fun _ => []) {}) (.ok [sizedEvent 8193]) {} =
        (.ok [], ⟨[valuesFault], 1, [sizedEvent 8193]⟩) ∧
      (EventQuery.nextBatchDeserialize boundedXml some (.ok [blankEvent 8193])
        ({} : EventQuery StoredEvent RenderFault)).1 = .ok [] := by
  refine ⟨⟨_, rfl⟩, rfl, ?_⟩
  have hnone := boundedXml_blankEvent (show 8192 < 8193 by decide)
  rw [EventQuery.nextBatchDeserialize_out, filterMap_cons, hnone]
  rfl

end WindowsErg.Evt
