import WindowsErg.EvtQuery

/-! Running a query against the event log in batches, `src/evt/mod.rs`. Rendering an event
and the answers of the system are parameters. -/
namespace WindowsErg.Evt
open List TextScan
variable {H E C : Type}

structure EventLogQueryError where
  channel : Text
  reason : Text
  code : Option ℕ
  deriving DecidableEq, Repr

abbrev EvtNextAnswer (H : Type) := Except ℕ (List H)

def errorNoMoreItems : ℕ := 259

/-- The counters of an open query; `closed` records the handles passed to `EvtClose`. -/
structure EventQuery (H C : Type) where
  corrupted : List C := []
  totalProcessed : ℕ := 0
  closed : List H := []
  deriving DecidableEq

namespace EventQuery

def processHandle (render : H → Except C E) (filter : E → Bool)
    (state : List E × EventQuery H C) (handle : H) : List E × EventQuery H C :=
  let (outEvents, query) := state
  let closed := query.closed ++ [handle]
  match render handle with
  | .ok event =>
    (if filter event then outEvents ++ [event] else outEvents,
      { query with totalProcessed := query.totalProcessed+1, closed })
  | .error corruptionInfo =>
    (outEvents, { corrupted := query.corrupted ++ [corruptionInfo],
                  totalProcessed := query.totalProcessed+1, closed })

/-- `answer` is what `EvtNext` answers to this call; the result is the filled buffer, whose
length the source returns. -/
def nextBatchWithFilter (render : H → Except C E) (filter : E → Bool) (answer : EvtNextAnswer H)
    (query : EventQuery H C) : Except EventLogQueryError (List E) × EventQuery H C :=
  match answer with
  | .error code =>
    if code = errorNoMoreItems then (.ok [], query)
    else (.error ⟨[], "EvtNext failed".toList, some code⟩, query)
  | .ok handles =>
    let (outEvents, query) := handles.foldl (processHandle render filter) ([], query)
    (.ok outEvents, query)

def nextBatch (render : H → Except C E) (answer : EvtNextAnswer H) (query : EventQuery H C) :
    Except EventLogQueryError (List E) × EventQuery H C :=
  nextBatchWithFilter render (fun _ => true) answer query

/-- The loop of `query_internal`, against the answers that the system still has; after them
it has no more items. -/
def fetchAll (render : H → Except C E) :
    List (EvtNextAnswer H) → List E → EventQuery H C →
      Except EventLogQueryError (List E) × EventQuery H C
  | [], events, query =>
    match nextBatch render (.error errorNoMoreItems) query with
    | (.error e, query) => (.error e, query)
    | (.ok _, query) => (.ok events, query)
  | answer :: answers, events, query =>
    match nextBatch render answer query with
    | (.error e, query) => (.error e, query)
    | (.ok batch, query) =>
      if 0 < batch.length then fetchAll render answers (events ++ batch) query
      else (.ok events, query)

end EventQuery

structure EventQueryResult (E C : Type) where
  events : List E
  corrupted : List C
  totalProcessed : ℕ
  deriving DecidableEq

/-- `EvtQuery` for a channel or a file: the answers of `EvtNext` on the new handle, or none
if it fails. -/
structure EvtSystem (H : Type) where
  evtQuery : Text → Bool → Text → Option (List (EvtNextAnswer H))

structure EventLog where
  channelOrPath : Text
  isFile : Bool
  deriving DecidableEq, Repr

def EventLog.query (system : EvtSystem H) (render : H → Except C E) (log : EventLog)
    (builder : QueryBuilder) : Except EventLogQueryError (EventQueryResult E C) :=
  match system.evtQuery log.channelOrPath log.isFile builder.buildXpath with
  | none => .error ⟨log.channelOrPath, "Failed to create query handle".toList, none⟩
  | some answers =>
    match EventQuery.fetchAll render answers [] {} with
    | (.error e, _) => .error e
    | (.ok events, query) => .ok ⟨events, query.corrupted, query.totalProcessed⟩

def rendered (render : H → Except C E) (handles : List H) : List E :=
  handles.filterMap fun handle => (render handle).toOption

def failure (render : H → Except C E) (handle : H) : Option C :=
  match render handle with
  | .ok _ => none
  | .error info => some info

def failures (render : H → Except C E) (handles : List H) : List C :=
  handles.filterMap (failure render)

def resultOf (render : H → Except C E) (handles : List H) : EventQueryResult E C :=
  ⟨rendered render handles, failures render handles, handles.length⟩

variable (render : H → Except C E)

namespace EventQuery

def after (render : H → Except C E) (query : EventQuery H C) (handles : List H) :
    EventQuery H C where
  corrupted := query.corrupted ++ failures render handles
  totalProcessed := query.totalProcessed+handles.length
  closed := query.closed ++ handles

theorem after_append (query : EventQuery H C) (hs ks : List H) :
    query.after render (hs ++ ks) = (query.after render hs).after render ks := by
  simp [after, failures, Nat.add_assoc]

theorem processHandle_eq (events : List E) (query : EventQuery H C) (handle : H) :
    processHandle render (fun _ => true) (events, query) handle =
      (events ++ rendered render [handle], query.after render [handle]) := by
  cases h : render handle with
  | ok event =>
    simp [processHandle, h, rendered, after, failures, failure, Except.toOption]
  | error info =>
    simp [processHandle, h, rendered, after, failures, failure, Except.toOption]

theorem foldl_processHandle (handles : List H) (events : List E) (query : EventQuery H C) :
    handles.foldl (processHandle render (fun _ => true)) (events, query) =
      (events ++ rendered render handles, query.after render handles) := by
  induction handles generalizing events query with
  | nil => simp [rendered, after, failures]
  | cons handle handles ih =>
    have hrendered : rendered render (handle :: handles) =
        rendered render [handle] ++ rendered render handles :=
      filterMap_append (l := [handle])
    rw [foldl_cons, processHandle_eq, ih, hrendered, append_assoc, ← after_append, singleton_append]

theorem nextBatch_ok (handles : List H) (query : EventQuery H C) :
    nextBatch render (.ok handles) query =
      (.ok (rendered render handles), query.after render handles) := by
  simp only [nextBatch, nextBatchWithFilter, foldl_processHandle, nil_append]

end EventQuery

def fetched (render : H → Except C E) : List (List H) → List (List H)
  | [] => []
  | batch :: batches =>
    if rendered render batch = [] then [batch] else batch :: fetched render batches

def unfetched (render : H → Except C E) : List (List H) → List (List H)
  | [] => []
  | batch :: batches =>
    if rendered render batch = [] then batches else unfetched render batches

variable (batches : List (List H))

theorem fetched_append_unfetched :
    fetched render batches ++ unfetched render batches = batches := by
  induction batches with
  | nil => rfl
  | cons batch batches ih =>
    unfold fetched unfetched
    split_ifs
    · rfl
    · rw [cons_append, ih]

theorem fetchAll_eq (events : List E) (query : EventQuery H C) :
    EventQuery.fetchAll render (batches.map .ok) events query =
      (.ok (events ++ rendered render (fetched render batches).flatten),
        query.after render (fetched render batches).flatten) := by
  induction batches generalizing events query with
  | nil =>
    simp [EventQuery.fetchAll, EventQuery.nextBatch, EventQuery.nextBatchWithFilter, fetched,
      rendered, EventQuery.after, failures]
  | cons batch batches ih =>
    rw [map_cons, EventQuery.fetchAll, EventQuery.nextBatch_ok, fetched]
    dsimp only
    by_cases hnone : rendered render batch = []
    · -- a batch without a rendered event ends the loop, whatever comes after it
      rw [if_neg (by simp [hnone]), if_pos hnone, flatten_singleton, hnone, append_nil]
    · rw [if_pos (length_pos_of_ne_nil hnone), if_neg hnone, ih, flatten_cons,
        EventQuery.after_append, append_assoc]
      congr 3
      exact (filterMap_append (l := batch)).symm

theorem EventLog.query_eq (system : EvtSystem H) (render : H → Except C E) (log : EventLog)
    (builder : QueryBuilder) (batches : List (List H))
    (h : system.evtQuery log.channelOrPath log.isFile builder.buildXpath =
      some (batches.map .ok)) :
    log.query system render builder = .ok (resultOf render (fetched render batches).flatten) := by
  simp only [EventLog.query, h, fetchAll_eq, EventQuery.after, resultOf, nil_append, Nat.zero_add]

/-- Every batch without a renderable event is followed by no further event. -/
def NoStallBeforeEvents (render : H → Except C E) (batches : List (List H)) : Prop :=
  ∀ front batch rest, batches = front ++ batch :: rest →
    (∀ handle ∈ batch, ∃ info, render handle = .error info) → rest.flatten = []

theorem rendered_eq_nil_iff (handles : List H) :
    rendered render handles = [] ↔ ∀ handle ∈ handles, ∃ info, render handle = .error info := by
  unfold rendered
  rw [filterMap_eq_nil_iff]
  apply forall₂_congr
  intro handle _
  cases render handle with
  | ok event => simp [Except.toOption]
  | error info => simp [Except.toOption]

theorem noStallBeforeEvents_iff :
    NoStallBeforeEvents render batches ↔ (unfetched render batches).flatten = [] := by
  induction batches with
  | nil => simp [NoStallBeforeEvents, unfetched]
  | cons batch batches ih =>
    unfold unfetched
    by_cases hnone : rendered render batch = []
    · rw [if_pos hnone]
      constructor
      · intro h
        exact h [] batch batches rfl ((rendered_eq_nil_iff render batch).mp hnone)
      · -- behind the stall there are no events at all, so none behind a later stall
        intro hempty front stall rest hsplit _
        rcases cons_eq_append_iff.mp hsplit with ⟨-, he⟩ | ⟨front', -, he⟩
        · rw [show rest = batches from (List.cons.inj he).2]
          exact hempty
        · rw [he, flatten_append, flatten_cons] at hempty
          exact (append_eq_nil_iff.mp (append_eq_nil_iff.mp hempty).2).2
    · rw [if_neg hnone, ← ih]
      constructor
      · intro h front stall rest hsplit hstall
        exact h (batch :: front) stall rest (by rw [hsplit, cons_append]) hstall
      · intro h front stall rest hsplit hstall
        rcases cons_eq_append_iff.mp hsplit with ⟨-, he⟩ | ⟨front', -, he⟩
        · rw [(List.cons.inj he).1] at hstall
          exact absurd ((rendered_eq_nil_iff render batch).mpr hstall) hnone
        · exact h front' stall rest he hstall

/-- A query returns every event, every failure and the number of all events exactly when no
batch without a renderable event comes before further events. -/
theorem event_log_query_complete_iff (system : EvtSystem H) (render : H → Except C E)
    (log : EventLog) (builder : QueryBuilder) (batches : List (List H))
    (h : system.evtQuery log.channelOrPath log.isFile builder.buildXpath =
      some (batches.map .ok)) :
    log.query system render builder = .ok (resultOf render batches.flatten) ↔
      NoStallBeforeEvents render batches := by
  rw [log.query_eq system render builder batches h, noStallBeforeEvents_iff, Except.ok.injEq]
  have hsplit : batches.flatten =
      (fetched render batches).flatten ++ (unfetched render batches).flatten := by
    rw [← flatten_append, fetched_append_unfetched]
  constructor
  · intro he
    -- the two results count the same number of events
    have hcount : (fetched render batches).flatten.length = batches.flatten.length :=
      congrArg EventQueryResult.totalProcessed he
    rw [hsplit, length_append] at hcount
    exact eq_nil_of_length_eq_zero (by omega)
  · intro hempty
    rw [hsplit, hempty, append_nil]

def renderEven (handle : ℕ) : Except ℕ ℕ := if handle%2 = 0 then .ok handle else .error handle

theorem event_log_query_complete_mixed_batches :
    EventLog.query ⟨fun _ _ _ => some [.ok [1, 2], .ok [4, 3]]⟩ renderEven
        ⟨"System".toList, false⟩ {} =
      .ok ⟨[2, 4], [1, 3], 4⟩ :=
  (event_log_query_complete_iff ⟨fun _ _ _ => some [.ok [1, 2], .ok [4, 3]]⟩ renderEven
    ⟨"System".toList, false⟩ {} [[1, 2], [4, 3]] rfl).mpr
    ((noStallBeforeEvents_iff _ _).mpr rfl)

/-- A batch of corrupted events ends the query before the next batch. -/
theorem event_log_query_stops_at_corrupted_batch :
    EventLog.query ⟨fun _ _ _ => some [.ok [1], .ok [2]]⟩ renderEven
        ⟨"System".toList, false⟩ {} = .ok ⟨[], [1], 1⟩ ∧
      resultOf renderEven [1, 2] = ⟨[2], [1], 2⟩ := by
  constructor
  · rfl
  · rfl

end WindowsErg.Evt
