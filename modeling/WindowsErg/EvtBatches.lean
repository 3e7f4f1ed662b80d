import WindowsErg.EvtLog

/-! The other ways to fetch a batch of events from a query, `src/evt/mod.rs`. -/
namespace WindowsErg.Evt
open TextScan
variable {H E C : Type}

namespace EventQuery

/-- What the batch functions have in common: the answer of `EvtNext` and a loop over the handles. -/
def fetchBatch {O : Type} (process : List O × EventQuery H C → H → List O × EventQuery H C)
    (answer : EvtNextAnswer H) (query : EventQuery H C) :
    Except EventLogQueryError (List O) × EventQuery H C :=
  match answer with
  | .error code =>
    if code = errorNoMoreItems then (.ok [], query)
    else (.error ⟨[], "EvtNext failed".toList, some code⟩, query)
  | .ok handles =>
    let (outEvents, query) := handles.foldl process ([], query)
    (.ok outEvents, query)

def processRaw {T F : Type} (converter : H → Except F T) (filter : T → Bool)
    (state : List T × EventQuery H C) (handle : H) : List T × EventQuery H C :=
  let (outEvents, query) := state
  let query := { query with totalProcessed := query.totalProcessed+1, closed := query.closed ++ [handle] }
  match converter handle with
  | .ok event => (if filter event then outEvents ++ [event] else outEvents, query)
  | .error _ => (outEvents, query)

def nextBatchRawWithFilter {T F : Type} (converter : H → Except F T) (filter : T → Bool) :
    EvtNextAnswer H → EventQuery H C → Except EventLogQueryError (List T) × EventQuery H C :=
  fetchBatch (processRaw converter filter)

def processResult (render : H → Except C E) (state : List (Except C E) × EventQuery H C)
    (handle : H) : List (Except C E) × EventQuery H C :=
  let (outEvents, query) := state
  (outEvents ++ [render handle],
    { query with totalProcessed := query.totalProcessed+1, closed := query.closed ++ [handle] })

def nextBatchWithResults (render : H → Except C E) :
    EvtNextAnswer H → EventQuery H C →
      Except EventLogQueryError (List (Except C E)) × EventQuery H C :=
  fetchBatch (processResult render)

def processXml {T : Type} (evtRender : H → Option Text) (deserialize : Text → Option T)
    (state : List T × EventQuery H C) (handle : H) : List T × EventQuery H C :=
  let (outEvents, query) := state
  let closed := query.closed ++ [handle]
  match evtRender handle with
  | some xml =>
    match deserialize xml with
    | some event =>
      (outEvents ++ [event], { query with totalProcessed := query.totalProcessed+1, closed })
    | none => (outEvents, { query with totalProcessed := query.totalProcessed+1, closed })
  -- `total_processed` is only raised in the branch of a successful `EvtRender`
  | none => (outEvents, { query with closed })

def nextBatchDeserialize {T : Type} (evtRender : H → Option Text) (deserialize : Text → Option T) :
    EvtNextAnswer H → EventQuery H C → Except EventLogQueryError (List T) × EventQuery H C :=
  fetchBatch (processXml evtRender deserialize)

section
variable {O : Type} {process : List O × EventQuery H C → H → List O × EventQuery H C}
    {out : H → List O} (hstep : ∀ state handle, (process state handle).1 = state.1 ++ out handle)
    (handles : List H)
include hstep

theorem foldl_out (state : List O × EventQuery H C) :
    (handles.foldl process state).1 = state.1 ++ handles.flatMap out := by
  induction handles generalizing state with
  | nil => exact (List.append_nil _).symm
  | cons handle handles ih =>
    rw [List.foldl_cons, ih, hstep, List.flatMap_cons, List.append_assoc]

theorem fetchBatch_out (query : EventQuery H C) :
    (fetchBatch process (.ok handles) query).1 = .ok (handles.flatMap out) :=
  congrArg Except.ok (foldl_out hstep handles ([], query))

end

theorem nextBatchWithResults_out (render : H → Except C E) (handles : List H)
    (query : EventQuery H C) :
    (query.nextBatchWithResults render (.ok handles)).1 = .ok (handles.map render) := by
  have hstep (state : List (Except C E) × EventQuery H C) (handle : H) :
      (processResult render state handle).1 = state.1 ++ [render handle] := rfl
  rw [nextBatchWithResults, fetchBatch_out hstep, List.map_eq_flatMap]

theorem nextBatchDeserialize_out {T : Type} (evtRender : H → Option Text)
    (deserialize : Text → Option T) (handles : List H) (query : EventQuery H C) :
    (query.nextBatchDeserialize evtRender deserialize (.ok handles)).1 =
      .ok (handles.filterMap fun handle => (evtRender handle).bind deserialize) := by
  have hstep (state : List T × EventQuery H C) (handle : H) :
      (processXml evtRender deserialize state handle).1 =
        state.1 ++ ((evtRender handle).bind deserialize).toList := by
    unfold processXml
    cases evtRender handle with
    | none => exact (List.append_nil _).symm
    | some xml =>
      dsimp only [Option.bind_some]
      cases deserialize xml with
      | none => exact (List.append_nil _).symm
      | some event => rfl
  rw [nextBatchDeserialize, fetchBatch_out hstep, List.filterMap_eq_flatMap_toList]

end EventQuery

inductive BatchCall (H E C : Type) : Type 1 where
  | nextBatch (render : H → Except C E)
  | nextBatchWithFilter (render : H → Except C E) (filter : E → Bool)
  | nextBatchRawWithFilter (T F : Type) (converter : H → Except F T) (filter : T → Bool)
  | nextBatchWithResults (render : H → Except C E)
  | nextBatchDeserialize (T : Type) (evtRender : H → Option Text) (deserialize : Text → Option T)

namespace BatchCall

def apply : BatchCall H E C → EvtNextAnswer H → EventQuery H C → EventQuery H C
  | .nextBatch render, answer, query => (query.nextBatch render answer).2
  | .nextBatchWithFilter render filter, answer, query =>
    (query.nextBatchWithFilter render filter answer).2
  | .nextBatchRawWithFilter _ _ converter filter, answer, query =>
    (query.nextBatchRawWithFilter converter filter answer).2
  | .nextBatchWithResults render, answer, query => (query.nextBatchWithResults render answer).2
  | .nextBatchDeserialize _ evtRender deserialize, answer, query =>
    (query.nextBatchDeserialize evtRender deserialize answer).2

def skips : BatchCall H E C → H → Bool
  | .nextBatchDeserialize _ evtRender _, handle => (evtRender handle).isNone
  | .nextBatch _, _ | .nextBatchWithFilter _ _, _ | .nextBatchRawWithFilter _ _ _ _, _
  | .nextBatchWithResults _, _ => false

end BatchCall

abbrev AnsweredCall (H E C : Type) := BatchCall H E C × EvtNextAnswer H

def runCalls (calls : List (AnsweredCall H E C)) (query : EventQuery H C) : EventQuery H C :=
  calls.foldl (fun query call => call.1.apply call.2 query) query

def handlesOf : EvtNextAnswer H → List H
  | .ok handles => handles
  | .error _ => []

def returnedHandles (calls : List (AnsweredCall H E C)) : List H :=
  calls.flatMap fun call => handlesOf call.2

def skippedCount (calls : List (AnsweredCall H E C)) : ℕ :=
  (calls.map fun call => (handlesOf call.2).countP call.1.skips).sum

structure Books (skips : H → Bool) (handles : List H) (query query' : EventQuery H C) : Prop where
  closed : query'.closed = query.closed ++ handles
  counted : query'.totalProcessed + handles.countP skips = query.totalProcessed + handles.length

theorem Books.nil (skips : H → Bool) (query : EventQuery H C) : Books skips [] query query :=
  ⟨(List.append_nil _).symm, rfl⟩

section
variable {O : Type} {process : List O × EventQuery H C → H → List O × EventQuery H C}
    {skips : H → Bool}
    (hstep : ∀ state handle, Books skips [handle] state.2 (process state handle).2)
include hstep

theorem foldl_books (handles : List H) (state : List O × EventQuery H C) :
    Books skips handles state.2 (handles.foldl process state).2 := by
  induction handles generalizing state with
  | nil => exact Books.nil skips state.2
  | cons handle handles ih =>
    obtain ⟨hclosed, hcounted⟩ := hstep state handle
    obtain ⟨hclosed', hcounted'⟩ := ih (process state handle)
    constructor
    · rw [List.foldl_cons, hclosed', hclosed, List.append_assoc, List.singleton_append]
    · rw [List.countP_singleton, List.length_singleton] at hcounted
      rw [List.foldl_cons, List.countP_cons, List.length_cons]
      omega

theorem fetchBatch_books (answer : EvtNextAnswer H) (query : EventQuery H C) :
    Books skips (handlesOf answer) query (query.fetchBatch process answer).2 := by
  cases answer with
  | ok handles => exact foldl_books hstep handles ([], query)
  | error code =>
    unfold EventQuery.fetchBatch
    dsimp only
    split_ifs
    · exact Books.nil skips query
    · exact Books.nil skips query

end

theorem processHandle_books (render : H → Except C E) (filter : E → Bool)
    (state : List E × EventQuery H C) (handle : H) :
    Books (fun _ => false) [handle] state.2
      (EventQuery.processHandle render filter state handle).2 := by
  unfold EventQuery.processHandle
  cases render handle with
  | ok event => exact ⟨rfl, rfl⟩
  | error info => exact ⟨rfl, rfl⟩

theorem processRaw_books {T F : Type} (converter : H → Except F T) (filter : T → Bool)
    (state : List T × EventQuery H C) (handle : H) :
    Books (fun _ => false) [handle] state.2
      (EventQuery.processRaw converter filter state handle).2 := by
  unfold EventQuery.processRaw
  cases converter handle with
  | ok event => exact ⟨rfl, rfl⟩
  | error e => exact ⟨rfl, rfl⟩

theorem processResult_books (render : H → Except C E) (state : List (Except C E) × EventQuery H C)
    (handle : H) :
    Books (fun _ => false) [handle] state.2 (EventQuery.processResult render state handle).2 :=
  ⟨rfl, rfl⟩

theorem processXml_books {T : Type} (evtRender : H → Option Text) (deserialize : Text → Option T)
    (state : List T × EventQuery H C) (handle : H) :
    Books (fun handle => (evtRender handle).isNone) [handle] state.2
      (EventQuery.processXml evtRender deserialize state handle).2 := by
  unfold EventQuery.processXml
  cases hrender : evtRender handle with
  | none => exact ⟨rfl, by simp [hrender]⟩
  | some xml =>
    dsimp only
    cases deserialize xml with
    | none => exact ⟨rfl, by simp [hrender]⟩
    | some event => exact ⟨rfl, by simp [hrender]⟩

theorem BatchCall.apply_books (call : BatchCall H E C) (answer : EvtNextAnswer H)
    (query : EventQuery H C) :
    Books call.skips (handlesOf answer) query (call.apply answer query) := by
  cases call with
  | nextBatch render => exact fetchBatch_books (processHandle_books render fun _ => true) answer query
  | nextBatchWithFilter render filter =>
    exact fetchBatch_books (processHandle_books render filter) answer query
  | nextBatchRawWithFilter T F converter filter =>
    exact fetchBatch_books (processRaw_books converter filter) answer query
  | nextBatchWithResults render =>
    exact fetchBatch_books (processResult_books render) answer query
  | nextBatchDeserialize T evtRender deserialize =>
    exact fetchBatch_books (processXml_books evtRender deserialize) answer query

theorem runCalls_books (calls : List (AnsweredCall H E C)) (query : EventQuery H C) :
    (runCalls calls query).closed = query.closed ++ returnedHandles calls ∧
      (runCalls calls query).totalProcessed + skippedCount calls =
        query.totalProcessed + (returnedHandles calls).length := by
  induction calls generalizing query with
  | nil => exact ⟨(List.append_nil _).symm, rfl⟩
  | cons call calls ih =>
    obtain ⟨hclosed, hcounted⟩ := call.1.apply_books call.2 query
    obtain ⟨hclosed', hcounted'⟩ := ih (call.1.apply call.2 query)
    have hrun : runCalls (call :: calls) query = runCalls calls (call.1.apply call.2 query) := rfl
    constructor
    · rw [hrun, hclosed', hclosed, List.append_assoc]
      rfl
    · rw [hrun, skippedCount, List.map_cons, List.sum_cons, ← skippedCount, returnedHandles,
        List.flatMap_cons, List.length_append, ← returnedHandles]
      omega

/-- Along every sequence of calls on a new query each handle is closed once, in the order of
`EvtNext`; all are counted exactly if no call of `next_batch_deserialize` fails to render one. -/
theorem handles_counted_and_closed_iff (calls : List (AnsweredCall H E C)) :
    ((runCalls calls {}).totalProcessed = (returnedHandles calls).length ∧
        (runCalls calls {}).closed = returnedHandles calls) ↔
      ∀ T evtRender deserialize handles,
        (BatchCall.nextBatchDeserialize T evtRender deserialize, .ok handles) ∈ calls →
          ∀ handle ∈ handles, evtRender handle ≠ none := by
  obtain ⟨hclosed, hcounted⟩ := runCalls_books calls {}
  -- the new query has counted nothing, so the count is short by what was passed over
  have hcount : (runCalls calls {}).totalProcessed = (returnedHandles calls).length ↔
      skippedCount calls = 0 := by
    change _ = 0 + _ at hcounted
    omega
  have hnone : skippedCount calls = 0 ↔
      ∀ call ∈ calls, ∀ handle ∈ handlesOf call.2, call.1.skips handle = false := by
    rw [skippedCount, List.sum_eq_zero_iff_forall_eq_nat, List.forall_mem_map]
    apply forall₂_congr
    intro call _
    simp only [List.countP_eq_zero, Bool.not_eq_true]
  rw [List.nil_append] at hclosed
  rw [and_iff_left hclosed, hcount, hnone]
  constructor
  · intro h T evtRender deserialize handles hcall handle hhandle hfailed
    have hskips := h _ hcall handle hhandle
    rw [BatchCall.skips, hfailed] at hskips
    cases hskips
  · rintro h ⟨call, answer⟩ hcall handle hhandle
    cases call with
    | nextBatchDeserialize T evtRender deserialize =>
      cases answer with
      | ok handles =>
        have hsome := h T evtRender deserialize handles hcall handle hhandle
        exact Option.isNone_eq_false_iff.mpr (Option.isSome_iff_ne_none.mpr hsome)
      | error code => cases hhandle
    | nextBatch | nextBatchWithFilter | nextBatchRawWithFilter | nextBatchWithResults => rfl

/-- One of two events cannot be rendered as XML. -/
theorem deserialize_misses_count :
    let calls : List (AnsweredCall ℕ Unit Unit) :=
      [(.nextBatchDeserialize Text (fun handle => if handle = 1 then some [] else none) some,
        .ok [1, 2])]
    (runCalls calls {}).totalProcessed = 1 ∧ (returnedHandles calls).length = 2 ∧
      (runCalls calls {}).closed = [1, 2] :=
  ⟨rfl, rfl, rfl⟩

end WindowsErg.Evt
