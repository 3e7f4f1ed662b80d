import WindowsErg.EvtBatches
import WindowsErg.EvtValues

/-! What `EventLog::query` of `src/evt/mod.rs` makes of the options of its builder. -/
namespace WindowsErg.Evt
open Option List TextScan UnicodeText XmlTokens
variable {H E C : Type}

structure QuerySettings where
  renderFormat : RenderFormat := .values
  includeEventData : Bool := false
  parseMessage : Bool := false

def QuerySettings.render (settings : QuerySettings) (reader : Text → List XmlToken)
    (answers : EvtRenderAnswers) : Except RenderFault Event :=
  renderEvent reader answers settings.renderFormat settings.includeEventData settings.parseMessage

def eventDataOf (reader : Text → List XmlToken) (xml : Option (List UInt16)) :
    Option (List (Text × Text)) :=
  xml.bind fun units => extractEventDataFromXml (reader (decodeUtf16Lossy units))

theorem extractEventDataFromXml_ne_nil {tokens : List XmlToken} {fields : List (Text × Text)}
    (h : extractEventDataFromXml tokens = some fields) : fields ≠ [] := by
  unfold extractEventDataFromXml at h
  obtain ⟨hne, he⟩ := ite_none_left_eq_some.mp h
  rw [← Option.some.inj he]
  exact hne

theorem eventDataOf_ne_nil {reader : Text → List XmlToken} {xml : Option (List UInt16)}
    {fields : List (Text × Text)} (h : eventDataOf reader xml = some fields) : fields ≠ [] := by
  obtain ⟨units, -, hfields⟩ := bind_eq_some_iff.mp h
  exact extractEventDataFromXml_ne_nil hfields

def Event.Bare (event : Event) : Prop := event.data = none ∧ event.formattedMessage = none

section Values
variable {event : Event} {variants : List EvtVariant} {position : ℕ}

theorem atPosition_bare {update : EvtVariant → Event → Event}
    (hupdate : ∀ variant event, event.Bare → (update variant event).Bare) (h : event.Bare) :
    (atPosition variants position update event).Bare := by
  unfold atPosition
  cases variants[position]? with
  | some variant => exact hupdate variant event h
  | none => exact h

theorem whenSome_bare {α : Type} {extract : EvtVariant → Option α} {set : α → Event → Event}
    (hset : ∀ value event, event.Bare → (set value event).Bare) (variant : EvtVariant)
    (event : Event) (h : event.Bare) : (whenSome extract set variant event).Bare := by
  unfold whenSome
  cases extract variant with
  | some value => exact hset value event h
  | none => exact h

end Values

theorem readValues_bare (variants : List EvtVariant) :
    (readValues variants).formattedMessage = none ∧
      ((readValues variants).data = none ∨ (readValues variants).data = some []) := by
  obtain ⟨event, hbare, hread⟩ : ∃ event : Event, event.Bare ∧ readValues variants =
      if 9 < variants.length then { event with data := some [] } else event := by
    refine ⟨_, ?_, rfl⟩
    -- seven fields stay as they are without a value, the level and the id do not
    iterate 7
      refine atPosition_bare (whenSome_bare ?_) ?_
      · exact fun _ _ h => h
    iterate 2
      refine atPosition_bare ?_ ?_
      · exact fun _ _ h => h
    exact ⟨rfl, rfl⟩
  rw [hread]
  split_ifs
  · exact ⟨hbare.2, Or.inr rfl⟩
  · exact ⟨hbare.2, Or.inl hbare.1⟩

theorem readValues_data_ne (variants : List EvtVariant) {reader : Text → List XmlToken}
    {xml : Option (List UInt16)} {fields : List (Text × Text)}
    (h : eventDataOf reader xml = some fields) : (readValues variants).data ≠ some fields := by
  intro hfilled
  rcases (readValues_bare variants).2 with hnone | hempty
  · cases hnone.symm.trans hfilled
  · rw [hempty] at hfilled
    exact eventDataOf_ne_nil h (Option.some.inj hfilled).symm

def EventLog.queryFlags (log : EventLog) : UInt32 := if log.isFile then 0x2 else 0x1

def evtQueryReverseDirection : UInt32 := 0x200

def listed (flags : UInt32) (content : List H) : List H :=
  if flags &&& evtQueryReverseDirection ≠ 0 then content.reverse else content

structure Lists (system : EvtSystem H) (log : EventLog) (builder : QueryBuilder) (content : List H)
    (batches : List (List H)) : Prop where
  answers : system.evtQuery log.channelOrPath log.isFile builder.buildXpath =
    some (batches.map .ok)
  order : batches.flatten = listed log.queryFlags content
  distinct : content.Nodup

def traced (render : H → Except C E) (handle : H) : Except C (H × E) :=
  (render handle).map fun event => (handle, event)

/-- What a builder asks for beyond the XPath text, of events with their handles. -/
structure QueryBuilder.Honoured (builder : QueryBuilder) (reader : Text → List XmlToken)
    (answers : H → EvtRenderAnswers) (content : List H) (events : List (H × Event)) : Prop where
  limit : ∀ n, builder.maxResults = some n → events.length ≤ n
  order : (events.map Prod.fst).Sublist (if builder.reverse then content.reverse else content)
  data : builder.includeEventData = true → ∀ shown ∈ events, ∀ fields,
    eventDataOf reader (answers shown.1).xml = some fields → shown.2.data = some fields
  message : builder.parseMessage = true → ∀ shown ∈ events, ∀ text,
    (answers shown.1).message = some text → shown.2.formattedMessage = some text

def queryRender (reader : Text → List XmlToken) (answers : H → EvtRenderAnswers) (handle : H) :
    Except RenderFault Event :=
  ({} : QuerySettings).render reader (answers handle)

def shownHandles (reader : Text → List XmlToken) (answers : H → EvtRenderAnswers)
    (batches : List (List H)) : List H :=
  (fetched (queryRender reader answers) batches).flatten.filter fun handle =>
    (answers handle).values.isSome

theorem queryRender_eq (reader : Text → List XmlToken) (answers : H → EvtRenderAnswers)
    (handle : H) :
    queryRender reader answers handle = renderEventValues (answers handle).values := by
  rw [queryRender, QuerySettings.render, renderEvent]
  cases hvalues : renderEventValues (answers handle).values with
  | ok event => simp [renderFormat, hvalues, bind, Except.bind, pure, Except.pure]
  | error fault => simp [renderFormat, hvalues, bind, Except.bind]

section Traced
variable (render : H → Except C E)

theorem rendered_traced (handles : List H) :
    (rendered (traced render) handles).map Prod.snd = rendered render handles := by
  unfold rendered
  rw [map_filterMap]
  congr 1
  funext handle
  cases hrender : render handle <;> simp [traced, hrender, Except.map, Except.toOption]

theorem fetched_traced (batches : List (List H)) :
    fetched (traced render) batches = fetched render batches := by
  induction batches with
  | nil => rfl
  | cons batch batches ih =>
    -- the loop ends at a batch without events, and these are the same batches
    have hempty : rendered (traced render) batch = [] ↔ rendered render batch = [] := by
      rw [← rendered_traced render, map_eq_nil_iff]
    unfold fetched
    rw [ih]
    exact if_congr hempty rfl rfl

end Traced

theorem listed_queryFlags (log : EventLog) (content : List H) :
    listed log.queryFlags content = content := by
  have hflags : log.queryFlags &&& evtQueryReverseDirection = 0 := by
    unfold EventLog.queryFlags
    split_ifs
    · decide
    · decide
  rw [listed, if_neg (not_not.mpr hflags)]

theorem not_sublist_swap {α : Type} {whole : List α} {a b : α} (hnodup : whole.Nodup)
    (hab : [a, b].Sublist whole) : ¬ [b, a].Sublist whole := by
  intro hba
  induction whole with
  | nil => cases hab
  | cons first whole ih =>
    obtain ⟨hfirst, hrest⟩ := nodup_cons.mp hnodup
    rcases sublist_cons_iff.mp hab with hinside | ⟨tail, he, htail⟩
    · rcases sublist_cons_iff.mp hba with hinside' | ⟨tail, he, htail⟩
      · exact ih hrest hinside hinside'
      · obtain ⟨rfl, rfl⟩ := List.cons.inj he
        exact hfirst (hinside.subset (mem_cons_of_mem _ mem_cons_self))
    · obtain ⟨rfl, rfl⟩ := List.cons.inj he
      rcases sublist_cons_iff.mp hba with hinside | ⟨tail, he, -⟩
      · exact hfirst (hinside.subset (mem_cons_of_mem _ mem_cons_self))
      · obtain ⟨rfl, -⟩ := List.cons.inj he
        exact hfirst (htail.subset mem_cons_self)

theorem sublist_reverse_iff {α : Type} {part whole : List α} (hnodup : whole.Nodup)
    (h : part.Sublist whole) : part.Sublist whole.reverse ↔ part.length ≤ 1 := by
  match part with
  | [] => simp
  | [a] =>
    have ha : a ∈ whole := h.subset mem_cons_self
    simpa using ha
  | a :: b :: rest =>
    have hfront : [a, b].Sublist (a :: b :: rest) :=
      List.Sublist.cons_cons a (List.Sublist.cons_cons b (nil_sublist rest))
    apply iff_of_false
    · intro hreverse
      have hbackward := (hfront.trans hreverse).reverse
      rw [reverse_reverse] at hbackward
      exact not_sublist_swap hnodup (hfront.trans h) hbackward
    · simp

section Shown
variable (reader : Text → List XmlToken) (answers : H → EvtRenderAnswers)

theorem rendered_queryRender (handles : List H) :
    rendered (traced (queryRender reader answers)) handles =
      handles.filterMap fun handle =>
        (answers handle).values.map fun variants => (handle, readValues variants) := by
  unfold rendered
  congr 1
  funext handle
  rw [traced, queryRender_eq]
  cases (answers handle).values with
  | none => rfl
  | some variants => rfl

theorem map_fst_rendered (handles : List H) :
    (rendered (traced (queryRender reader answers)) handles).map Prod.fst =
      handles.filter fun handle => (answers handle).values.isSome := by
  rw [rendered_queryRender, map_filterMap]
  induction handles with
  | nil => rfl
  | cons handle handles ih =>
    rw [filterMap_cons, filter_cons, ih]
    cases (answers handle).values with
    | none => rfl
    | some variants => rfl

section
variable {system : EvtSystem H} {log : EventLog} {builder : QueryBuilder} {content : List H}
    {batches : List (List H)} (h : Lists system log builder content batches)
include h

theorem query_events :
    ∃ result, log.query system (traced (queryRender reader answers)) builder = .ok result ∧
      result.events.map Prod.fst = shownHandles reader answers batches ∧
      ∀ shown ∈ result.events, ∃ variants, shown.2 = readValues variants := by
  refine ⟨_, log.query_eq system _ builder batches h.answers, ?_, ?_⟩
  · rw [fetched_traced]
    exact map_fst_rendered reader answers _
  · intro shown hshown
    rw [resultOf, rendered_queryRender] at hshown
    obtain ⟨handle, -, hvalues⟩ := mem_filterMap.mp hshown
    obtain ⟨variants, -, rfl⟩ := map_eq_some_iff.mp hvalues
    exact ⟨variants, rfl⟩

theorem shownHandles_sublist :
    (shownHandles reader answers batches).Sublist content := by
  have hfetched : (fetched (queryRender reader answers) batches).flatten.Sublist batches.flatten := by
    have hsplit := fetched_append_unfetched (queryRender reader answers) batches
    nth_rewrite 2 [← hsplit]
    rw [flatten_append]
    exact sublist_append_left _ _
  rw [h.order, listed_queryFlags] at hfetched
  exact filter_sublist.trans hfetched

end

end Shown

/-- A query honours its builder exactly if the options ask for nothing: a limit that is not reached,
no two events to list in reverse, no event data and no message to fill in. -/
theorem query_honours_builder_iff (reader : Text → List XmlToken) (answers : H → EvtRenderAnswers)
    (system : EvtSystem H) (log : EventLog) (builder : QueryBuilder) (content : List H)
    (batches : List (List H)) (h : Lists system log builder content batches) :
    (∃ result, log.query system (traced (queryRender reader answers)) builder = .ok result ∧
        builder.Honoured reader answers content result.events) ↔
      (∀ n, builder.maxResults = some n → (shownHandles reader answers batches).length ≤ n) ∧
        (builder.reverse = true → (shownHandles reader answers batches).length ≤ 1) ∧
        (builder.includeEventData = true → ∀ handle ∈ shownHandles reader answers batches,
          eventDataOf reader (answers handle).xml = none) ∧
        (builder.parseMessage = true → ∀ handle ∈ shownHandles reader answers batches,
          (answers handle).message = none) := by
  obtain ⟨⟨events, corrupted, total⟩, hquery, hhandles, hvalues⟩ := query_events reader answers h
  dsimp only at hhandles hvalues
  have hsublist := shownHandles_sublist reader answers h
  have hlength : events.length = (shownHandles reader answers batches).length := by
    rw [← hhandles, length_map]
  have hmem (handle : H) : handle ∈ shownHandles reader answers batches ↔
      ∃ event, (handle, event) ∈ events := by
    rw [← hhandles]
    simp
  have hhonoured : (∃ result,
      log.query system (traced (queryRender reader answers)) builder = .ok result ∧
        builder.Honoured reader answers content result.events) ↔
      builder.Honoured reader answers content events := by
    simp only [hquery, Except.ok.injEq, exists_eq_left']
  rw [hhonoured]
  constructor
  · intro hall
    refine ⟨fun n hn => hlength ▸ hall.limit n hn, ?_, ?_, ?_⟩
    · -- the events come from the oldest on, so in reverse order there is one at most
      intro hreverse
      have hbackward := hall.order
      rw [hhandles, if_pos hreverse] at hbackward
      exact (sublist_reverse_iff h.distinct hsublist).mp hbackward
    · -- event data that are there would have to come out of the values
      intro hdata handle hhandle
      obtain ⟨event, hin⟩ := (hmem handle).mp hhandle
      obtain ⟨variants, hread⟩ := hvalues _ hin
      by_contra havailable
      obtain ⟨fields, hfields⟩ := ne_none_iff_exists'.mp havailable
      have hfilled := hall.data hdata _ hin fields hfields
      rw [hread] at hfilled
      exact readValues_data_ne variants hfields hfilled
    · intro hmessage handle hhandle
      obtain ⟨event, hin⟩ := (hmem handle).mp hhandle
      obtain ⟨variants, hread⟩ := hvalues _ hin
      by_contra havailable
      obtain ⟨text, htext⟩ := ne_none_iff_exists'.mp havailable
      have hfilled := hall.message hmessage _ hin text htext
      rw [hread, (readValues_bare variants).1] at hfilled
      cases hfilled
  · rintro ⟨hlimit, hreverse, hdata, hmessage⟩
    refine ⟨fun n hn => hlength.symm ▸ hlimit n hn, ?_, ?_, ?_⟩
    · rw [hhandles]
      split_ifs with hcase
      · exact (sublist_reverse_iff h.distinct hsublist).mpr (hreverse hcase)
      · exact hsublist
    · intro hcase shown hin fields hfields
      rw [hdata hcase shown.1 ((hmem shown.1).mpr ⟨shown.2, hin⟩)] at hfields
      cases hfields
    · intro hcase shown hin text htext
      rw [hmessage hcase shown.1 ((hmem shown.1).mpr ⟨shown.2, hin⟩)] at htext
      cases htext

def greetingAnswers : EvtRenderAnswers where
  values := some []
  xml := none
  xmlAgain := none
  message := some "Hello".toList

def numberedLog (content : List ℕ) : EvtSystem ℕ := ⟨fun _ _ _ => some [.ok content]⟩

theorem numberedLog_lists (builder : QueryBuilder) (content : List ℕ) (h : content.Nodup) :
    Lists (numberedLog content) ⟨"System".toList, false⟩ builder content [content] where
  answers := rfl
  order := by rw [listed_queryFlags, flatten_singleton]
  distinct := h

theorem query_honours_builder_limit :
    ∃ result, EventLog.query (numberedLog [1, 2]) (traced (queryRender (fun _ => [])
        fun _ => greetingAnswers)) ⟨"System".toList, false⟩ { maxResults := some 2 } = .ok result ∧
      QueryBuilder.Honoured { maxResults := some 2 } (fun _ => []) (fun _ => greetingAnswers) [1, 2]
        result.events := by
  apply (query_honours_builder_iff (fun _ => []) (fun _ => greetingAnswers) (numberedLog [1, 2])
    ⟨"System".toList, false⟩ { maxResults := some 2 } [1, 2] [[1, 2]]
    (numberedLog_lists _ _ (by decide))).mpr
  refine ⟨?_, nofun, nofun, nofun⟩
  intro n hn
  obtain rfl : 2 = n := Option.some.inj hn
  decide

/-- One event at most, the newest first and with its message: both events come, the oldest first and
without their messages. -/
theorem query_ignores_options :
    let builder : QueryBuilder := { maxResults := some 1, reverse := true, parseMessage := true }
    ∃ result, EventLog.query (numberedLog [1, 2]) (traced (queryRender (fun _ => [])
        fun _ => greetingAnswers)) ⟨"System".toList, false⟩ builder = .ok result ∧
      result.events.map (fun shown => (shown.1, shown.2.formattedMessage)) =
        [(1, none), (2, none)] ∧
      ¬ builder.Honoured (fun _ => []) (fun _ => greetingAnswers) [1, 2] result.events := by
  intro builder
  refine ⟨_, rfl, rfl, ?_⟩
  intro hhonoured
  exact absurd (hhonoured.limit 1 rfl) (by decide)

end WindowsErg.Evt
