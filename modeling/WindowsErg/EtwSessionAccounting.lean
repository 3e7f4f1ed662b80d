import WindowsErg.EtwSession

/-! The books of the raw and of the decoded stream agree with the channels in every state of every
run. -/
namespace WindowsErg.Etw
open Option List BoundedChannel
variable {R D : Type}

def Callback.pendingRaw (ctx : CallbackContext R D) : Callback → List R
  | .sendDecoded record fields | .countDecoded record fields | .sendRaw record fields =>
    [ctx.traceEvent record fields]
  | .idle | .countRaw => []

def Callback.pendingDecoded (ctx : CallbackContext R D) : Callback → List D
  | .sendDecoded record fields => [ctx.decodedEvent record fields]
  | _ => []

def Callback.uncounted : Callback → UInt64
  | .countDecoded _ _ | .countRaw => 1
  | _ => 0

namespace Session

def inHandRaw (s : Session R D) : List R :=
  match s.consumer with
  | .drainRaw _ | .waitRaw | .drainWaited => s.outRaw
  | .idle | .drainDecoded _ => []

def inHandDecoded (s : Session R D) : List D :=
  match s.consumer with
  | .drainDecoded _ => s.outDecoded
  | _ => []

end Session

namespace Observation

def rawAccepted (ctx : CallbackContext R D) : Observation R D → Option R
  | .accepted record fields => some (ctx.traceEvent record fields)
  | _ => none

def decodedAccepted (ctx : CallbackContext R D) : Observation R D → Option D
  | .accepted record fields => some (ctx.decodedEvent record fields)
  | _ => none

def rawSent : Observation R D → Option (R × Bool)
  | .sentRaw event ok => some (event, ok)
  | _ => none

def decodedSent : Observation R D → Option (D × Bool)
  | .sentDecoded event ok => some (event, ok)
  | _ => none

def rawTaken : Observation R D → Option (R × Bool)
  | .takenRaw event kept => some (event, kept)
  | _ => none

def decodedTaken : Observation R D → Option (D × Bool)
  | .takenDecoded event kept => some (event, kept)
  | _ => none

def rawReturned : Observation R D → Option (List R)
  | .returnedRaw outEvents => some outEvents
  | _ => none

def decodedReturned : Observation R D → Option (List D)
  | .returnedDecoded outEvents => some outEvents
  | _ => none

def RespectsFilters (ctx : CallbackContext R D) : Observation R D → Prop
  | .discarded record => ctx.accepts record = false
  | .accepted record _ => ctx.accepts record = true
  | _ => True

end Observation

structure StreamView (R D α : Type) where
  accepted : Observation R D → Option α
  pending : Callback → List α
  sent : Observation R D → Option (α × Bool)
  taken : Observation R D → Option (α × Bool)
  returned : Observation R D → Option (List α)
  inHand : Session R D → List α

def rawView (ctx : CallbackContext R D) : StreamView R D R where
  accepted := Observation.rawAccepted ctx
  pending := Callback.pendingRaw ctx
  sent := Observation.rawSent
  taken := Observation.rawTaken
  returned := Observation.rawReturned
  inHand := Session.inHandRaw

def decodedView (ctx : CallbackContext R D) : StreamView R D D where
  accepted := Observation.decodedAccepted ctx
  pending := Callback.pendingDecoded ctx
  sent := Observation.decodedSent
  taken := Observation.decodedTaken
  returned := Observation.decodedReturned
  inHand := Session.inHandDecoded

def StreamView.books {α : Type} (view : StreamView R D α) (s : Session R D)
    (seen : List (Observation R D)) : Books α where
  accepted := seen.filterMap view.accepted
  pending := view.pending s.callback
  sent := seen.filterMap view.sent
  taken := seen.filterMap view.taken
  returned := seen.flatMap (fun o => (view.returned o).getD [])
  inHand := view.inHand s

def snocSome {α : Type} (xs : List α) : Option α → List α
  | some a => xs ++ [a]
  | none => xs

theorem filterMap_snoc {α β : Type} (f : α → Option β) (xs : List α) (a : α) :
    (xs ++ [a]).filterMap f = snocSome (xs.filterMap f) (f a) := by
  rw [filterMap_append]
  cases hf : f a with
  | none => simp [hf, snocSome]
  | some b => simp [hf, snocSome]

theorem flatMap_getD_snoc {α β : Type} (f : α → Option (List β)) (xs : List α) (a : α) :
    (xs ++ [a]).flatMap (fun o => (f o).getD []) =
      (f a).elim (xs.flatMap (fun o => (f o).getD []))
        (xs.flatMap (fun o => (f o).getD []) ++ ·) := by
  rw [flatMap_append]
  cases hf : f a with
  | none => simp [hf]
  | some b => simp [hf]

def StreamView.noted {α : Type} (view : StreamView R D α) (s : Session R D)
    (seen : List (Observation R D)) (o : Observation R D) : Books α where
  accepted := snocSome (view.books s seen).accepted (view.accepted o)
  pending := view.pending s.callback
  sent := snocSome (view.books s seen).sent (view.sent o)
  taken := snocSome (view.books s seen).taken (view.taken o)
  returned := (view.returned o).elim (view.books s seen).returned ((view.books s seen).returned ++ ·)
  inHand := view.inHand s

theorem StreamView.books_snoc {α : Type} (view : StreamView R D α) (s : Session R D)
    (seen : List (Observation R D)) (o : Observation R D) :
    view.books s (seen ++ [o]) = view.noted s seen o := by
  simp only [books, noted, filterMap_snoc, flatMap_getD_snoc]

def failedSends (seen : List (Observation R D)) : ℕ :=
  (marked false (seen.filterMap Observation.rawSent)).length +
    (marked false (seen.filterMap Observation.decodedSent)).length

section
variable (seen : List (Observation R D))

theorem failedSends_snoc (o : Observation R D) :
    failedSends (seen ++ [o]) =
      (marked false (snocSome (seen.filterMap Observation.rawSent) o.rawSent)).length +
        (marked false (snocSome (seen.filterMap Observation.decodedSent) o.decodedSent)).length := by
  simp only [failedSends, filterMap_snoc]

theorem failedSends_sentRaw_false (event : R) :
    failedSends (seen ++ [.sentRaw event false]) = failedSends seen+1 := by
  rw [failedSends_snoc]
  change (marked false (_ ++ [(event, false)])).length + _ = _
  rw [marked_append, marked_self, length_append, failedSends, Nat.add_right_comm]
  rfl

theorem failedSends_sentDecoded_false (event : D) :
    failedSends (seen ++ [.sentDecoded event false]) = failedSends seen+1 := by
  rw [failedSends_snoc]
  change _ + (marked false (_ ++ [(event, false)])).length = _
  rw [marked_append, marked_self, length_append, failedSends, Nat.add_assoc]
  rfl

def Observation.NoFailure : Observation R D → Prop
  | .sentRaw _ ok | .sentDecoded _ ok => ok = true
  | _ => True

theorem failedSends_noFailure (o : Observation R D)
    (ho : o.NoFailure) : failedSends (seen ++ [o]) = failedSends seen := by
  rw [failedSends_snoc]
  cases o with
  | sentRaw event ok =>
    cases (ho : ok = true)
    change (marked false (_ ++ [(event, true)])).length + _ = _
    rw [marked_append]
    exact congrArg (·+_) (congrArg List.length (append_nil _))
  | sentDecoded event ok =>
    cases (ho : ok = true)
    change _ + (marked false (_ ++ [(event, true)])).length = _
    rw [marked_append]
    exact congrArg (_+·) (congrArg List.length (append_nil _))
  | _ => rfl

end

def EventStreamMode.hasRaw : EventStreamMode → Bool
  | .raw | .both => true
  | .decoded => false

def EventStreamMode.hasDecoded : EventStreamMode → Bool
  | .decoded | .both => true
  | .raw => false

structure Accounts (ctx : CallbackContext R D) (mode : EventStreamMode) (s : Session R D)
    (seen : List (Observation R D)) : Prop where
  raw : ((rawView ctx).books s seen).Agree s.raw
  decoded : ((decodedView ctx).books s seen).Agree s.decoded
  raw_selected : s.raw.isSome = mode.hasRaw
  decoded_selected : s.decoded.isSome = mode.hasDecoded
  counter : s.dropped+s.callback.uncounted = UInt64.ofNat (failedSends seen)
  filters : ∀ o ∈ seen, o.RespectsFilters ctx

namespace Accounts

variable {ctx : CallbackContext R D} {mode : EventStreamMode} {s after : Session R D}
  {seen : List (Observation R D)} {o : Observation R D} {next : Session R D × List (Observation R D)}

theorem started (ctx : CallbackContext R D) (builder : EventTraceBuilder) :
    Accounts ctx builder.streamMode (Session.started builder) [] := by
  -- an unselected stream has no channel and empty books, a selected one an empty channel
  cases hmode : builder.streamMode with
  | raw =>
    simp only [Session.started, hmode]
    exact ⟨⟨rfl, rfl, rfl⟩, ⟨rfl, rfl, rfl, rfl⟩, rfl, rfl, rfl, nofun⟩
  | decoded =>
    simp only [Session.started, hmode]
    exact ⟨⟨rfl, rfl, rfl, rfl⟩, ⟨rfl, rfl, rfl⟩, rfl, rfl, rfl, nofun⟩
  | both =>
    simp only [Session.started, hmode]
    exact ⟨⟨rfl, rfl, rfl⟩, ⟨rfl, rfl, rfl⟩, rfl, rfl, rfl, nofun⟩

section
variable (h : Accounts ctx mode s seen)
include h

theorem filters_snoc {o : Observation R D}
   (ho : o.RespectsFilters ctx) : ∀ p ∈ seen ++ [o], p.RespectsFilters ctx := by
  intro p hp
  rcases mem_append.mp hp with hp | hp
  · exact h.filters p hp
  · rw [mem_singleton.mp hp]
    exact ho

theorem counter_snoc (ho : o.NoFailure) :
    s.dropped+s.callback.uncounted = UInt64.ofNat (failedSends (seen ++ [o])) := by
  rw [failedSends_noFailure seen o ho]
  exact h.counter

theorem counter_fail (hzero : s.callback.uncounted = 0)
   (ho : failedSends (seen ++ [o]) = failedSends seen+1) :
    s.dropped+1 = UInt64.ofNat (failedSends (seen ++ [o])) := by
  have hcounter := h.counter
  rw [hzero, UInt64.add_zero] at hcounter
  rw [ho, UInt64.ofNat_add, hcounter]
  rfl

theorem observed
    (hselected : after.raw.isSome = s.raw.isSome ∧ after.decoded.isSome = s.decoded.isSome)
    (hraw : ((rawView ctx).noted after seen o).Agree after.raw)
    (hdecoded : ((decodedView ctx).noted after seen o).Agree after.decoded)
    (hcounter : after.dropped+after.callback.uncounted = UInt64.ofNat (failedSends (seen ++ [o])))
    (hfilter : o.RespectsFilters ctx) : Accounts ctx mode after (seen ++ [o]) := by
  rw [← StreamView.books_snoc] at hraw hdecoded
  exact ⟨hraw, hdecoded, hselected.1.trans h.raw_selected, hselected.2.trans h.decoded_selected,
    hcounter, h.filters_snoc hfilter⟩

theorem traceCallbackFn (record : EventRecord) (hstep : s.traceCallbackFn ctx record = some next) :
    Accounts ctx mode next.1 (seen ++ next.2) := by
  have hdiscard (hreject : ctx.accepts record = false) :
      Accounts ctx mode s (seen ++ [.discarded record]) :=
    h.observed ⟨rfl, rfl⟩ h.raw h.decoded (h.counter_snoc trivial) hreject
  obtain ⟨raw, decoded, _, _, callback, consumer, _, _, _⟩ := s
  cases callback with
  | idle =>
    simp only [Session.traceCallbackFn] at hstep
    split_ifs at hstep with hpid hdrop
    · cases hstep
      exact hdiscard (by rw [CallbackContext.accepts, hpid, Bool.false_and])
    · cases hstep
      exact hdiscard (by rw [CallbackContext.accepts, hdrop, Bool.not_true, Bool.and_false])
    · cases hstep
      have haccept : ctx.accepts record = true := by
        rw [CallbackContext.accepts, Bool.eq_true_of_not_eq_false hpid,
          Bool.eq_false_of_not_eq_true hdrop]
        rfl
      exact h.observed ⟨rfl, rfl⟩ (h.raw.accept _ rfl) (h.decoded.accept _ rfl)
        (h.counter_snoc trivial) haccept
  | sendDecoded | countDecoded | sendRaw | countRaw => cases hstep

theorem callbackStep_count {callback : Callback}
   (hone : s.callback.uncounted = 1) (hzero : callback.uncounted = 0)
    (hraw : callback.pendingRaw ctx = s.callback.pendingRaw ctx)
    (hdecoded : callback.pendingDecoded ctx = s.callback.pendingDecoded ctx) :
    Accounts ctx mode { s with dropped := s.dropped+1, callback := callback } seen := by
  have hcounter := h.counter
  rw [hone] at hcounter
  refine ⟨?_, ?_, h.raw_selected, h.decoded_selected, ?_, h.filters⟩
  · have hagree := h.raw
    simp only [StreamView.books, rawView] at hagree ⊢
    rw [hraw]
    exact hagree
  · have hagree := h.decoded
    simp only [StreamView.books, decodedView] at hagree ⊢
    rw [hdecoded]
    exact hagree
  · rw [hzero, UInt64.add_zero]
    exact hcounter

theorem callbackStep (hstep : s.callbackStep ctx = some next) :
    Accounts ctx mode next.1 (seen ++ next.2) := by
  obtain ⟨raw, decoded, _, _, callback, consumer, _, _, _⟩ := s
  cases callback with
  | idle => cases hstep
  | sendDecoded record fields =>
    cases decoded with
    | none =>
      cases hstep
      rw [append_nil]
      exact { h with decoded := Books.Unused.skip h.decoded }
    | some ch =>
      simp only [Session.callbackStep] at hstep
      cases hsend : ch.trySend (ctx.decodedEvent record fields) with
      | some after =>
        rw [hsend] at hstep
        cases hstep
        exact h.observed ⟨rfl, rfl⟩ h.raw (Books.Correct.send h.decoded _ rfl hsend)
          (h.counter_snoc rfl) trivial
      | none =>
        rw [hsend] at hstep
        cases hstep
        exact h.observed ⟨rfl, rfl⟩ h.raw (Books.Correct.fail h.decoded _ rfl)
          (h.counter_fail rfl (failedSends_sentDecoded_false _ _)) trivial
  | sendRaw record fields =>
    cases raw with
    | none =>
      cases hstep
      rw [append_nil]
      exact { h with raw := Books.Unused.skip h.raw }
    | some ch =>
      simp only [Session.callbackStep] at hstep
      cases hsend : ch.trySend (ctx.traceEvent record fields) with
      | some after =>
        rw [hsend] at hstep
        cases hstep
        exact h.observed ⟨rfl, rfl⟩ (Books.Correct.send h.raw _ rfl hsend) h.decoded
          (h.counter_snoc rfl) trivial
      | none =>
        rw [hsend] at hstep
        cases hstep
        exact h.observed ⟨rfl, rfl⟩ (Books.Correct.fail h.raw _ rfl) h.decoded
          (h.counter_fail rfl (failedSends_sentRaw_false _ _)) trivial
  | countDecoded | countRaw =>
    cases hstep
    rw [append_nil]
    exact h.callbackStep_count rfl rfl rfl rfl

theorem consumeFailed (reason : TextScan.Text) :
    Accounts ctx mode s (seen ++ [.consumeFailed reason]) :=
  h.observed ⟨rfl, rfl⟩ h.raw h.decoded (h.counter_snoc trivial) trivial

theorem nextBatchWithFilter (filter : R → Bool) (hstep : s.nextBatchWithFilter filter = some next) :
    Accounts ctx mode next.1 (seen ++ next.2) := by
  obtain ⟨raw, decoded, _, _, callback, consumer, _, _, _⟩ := s
  cases consumer with
  | idle =>
    cases raw with
    | none =>
      cases hstep
      exact h.consumeFailed _
    | some ch =>
      cases hstep
      rw [append_nil]
      exact { h with }
  | drainRaw | waitRaw | drainWaited | drainDecoded => cases hstep

theorem nextBatchTimeout (hstep : s.nextBatchTimeout = some next) :
    Accounts ctx mode next.1 (seen ++ next.2) := by
  obtain ⟨raw, decoded, _, _, callback, consumer, _, _, _⟩ := s
  cases consumer with
  | idle =>
    cases raw with
    | none =>
      cases hstep
      exact h.consumeFailed _
    | some ch =>
      cases hstep
      rw [append_nil]
      exact { h with raw := Books.Correct.congr h.raw ch.contents_park }
  | drainRaw | waitRaw | drainWaited | drainDecoded => cases hstep

theorem nextBatchDecodedWithFilter (filter : D → Bool)
    (hstep : s.nextBatchDecodedWithFilter filter = some next) :
    Accounts ctx mode next.1 (seen ++ next.2) := by
  obtain ⟨raw, decoded, _, _, callback, consumer, _, _, _⟩ := s
  cases consumer with
  | idle =>
    cases decoded with
    | none =>
      cases hstep
      exact h.consumeFailed _
    | some ch =>
      cases hstep
      rw [append_nil]
      exact { h with }
  | drainRaw | waitRaw | drainWaited | drainDecoded => cases hstep

theorem nextBatchOrStopped (signaled : Bool) (hstep : s.nextBatchOrStopped signaled = some next) :
    Accounts ctx mode next.1 (seen ++ next.2) := by
  unfold Session.nextBatchOrStopped at hstep
  split at hstep
  · next hidle =>
    cases signaled with
    | true =>
      obtain ⟨raw, decoded, _, _, callback, consumer, _, _, _⟩ := s
      cases hidle
      cases hstep
      exact h.observed ⟨rfl, rfl⟩ (Books.Agree.handOver h.raw) h.decoded
        (h.counter_snoc trivial) trivial
    | false => exact h.nextBatchWithFilter _ hstep
  · cases hstep

theorem consumerStep (hstep : s.consumerStep = some next) :
    Accounts ctx mode next.1 (seen ++ next.2) := by
  obtain ⟨raw, decoded, _, _, callback, consumer, _, _, _⟩ := s
  cases consumer with
  | idle => cases hstep
  | drainRaw filter =>
    obtain ⟨ch, hraw, hstep⟩ := bind_eq_some_iff.mp hstep
    cases (hraw : raw = some ch)
    cases hrecv : ch.tryRecv with
    | none =>
      rw [hrecv] at hstep
      cases hstep
      exact h.observed ⟨rfl, rfl⟩ (Books.Agree.handOver h.raw) h.decoded
        (h.counter_snoc trivial) trivial
    | some received =>
      have htake := ch.contents_tryRecv received.2 received.1 hrecv
      rw [hrecv] at hstep
      simp only at hstep
      split_ifs at hstep with hkeep
      · cases hstep
        exact h.observed ⟨rfl, rfl⟩ (Books.Correct.keep h.raw received.1 htake) h.decoded
          (h.counter_snoc trivial) trivial
      · cases hstep
        exact h.observed ⟨rfl, rfl⟩ (Books.Correct.refuse h.raw received.1 htake) h.decoded
          (h.counter_snoc trivial) trivial
  | waitRaw =>
    obtain ⟨ch, hraw, hstep⟩ := bind_eq_some_iff.mp hstep
    cases (hraw : raw = some ch)
    cases hrecv : ch.recvParked with
    | none =>
      rw [hrecv] at hstep
      cases hstep
    | some received =>
      have htake := ch.contents_recvParked received.2 received.1 hrecv
      rw [hrecv] at hstep
      cases hstep
      exact h.observed ⟨rfl, rfl⟩ (Books.Correct.keep h.raw received.1 htake) h.decoded
        (h.counter_snoc trivial) trivial
  | drainWaited =>
    obtain ⟨ch, hraw, hstep⟩ := bind_eq_some_iff.mp hstep
    cases (hraw : raw = some ch)
    cases hrecv : ch.tryRecv with
    | none =>
      rw [hrecv] at hstep
      cases hstep
      exact h.observed ⟨rfl, rfl⟩ (Books.Agree.handOver h.raw) h.decoded
        (h.counter_snoc trivial) trivial
    | some received =>
      have htake := ch.contents_tryRecv received.2 received.1 hrecv
      rw [hrecv] at hstep
      cases hstep
      exact h.observed ⟨rfl, rfl⟩ (Books.Correct.keep h.raw received.1 htake) h.decoded
        (h.counter_snoc trivial) trivial
  | drainDecoded filter =>
    obtain ⟨ch, hdecoded, hstep⟩ := bind_eq_some_iff.mp hstep
    cases (hdecoded : decoded = some ch)
    cases hrecv : ch.tryRecv with
    | none =>
      rw [hrecv] at hstep
      cases hstep
      exact h.observed ⟨rfl, rfl⟩ h.raw (Books.Agree.handOver h.decoded)
        (h.counter_snoc trivial) trivial
    | some received =>
      have htake := ch.contents_tryRecv received.2 received.1 hrecv
      rw [hrecv] at hstep
      simp only at hstep
      split_ifs at hstep with hkeep
      · cases hstep
        exact h.observed ⟨rfl, rfl⟩ h.raw (Books.Correct.keep h.decoded received.1 htake)
          (h.counter_snoc trivial) trivial
      · cases hstep
        exact h.observed ⟨rfl, rfl⟩ h.raw (Books.Correct.refuse h.decoded received.1 htake)
          (h.counter_snoc trivial) trivial

theorem timeout
    (hstep : s.timeout = some next) : Accounts ctx mode next.1 (seen ++ next.2) := by
  obtain ⟨raw, decoded, _, _, callback, consumer, _, _, _⟩ := s
  cases consumer with
  | waitRaw =>
    cases raw with
    | none => cases hstep
    | some ch =>
      simp only [Session.timeout] at hstep
      split_ifs at hstep with hhanded
      cases hstep
      exact h.observed ⟨rfl, rfl⟩ (Books.Correct.congr (Books.Agree.handOver h.raw) ch.contents_unpark)
        h.decoded (h.counter_snoc trivial) trivial
  | idle | drainRaw | drainWaited | drainDecoded => cases hstep

theorem step (action : Session.Action R D) (hstep : s.step ctx action = some next) :
    Accounts ctx mode next.1 (seen ++ next.2) := by
  cases action with
  | traceCallbackFn record => exact h.traceCallbackFn record hstep
  | callbackStep => exact h.callbackStep hstep
  | nextBatchWithFilter filter => exact h.nextBatchWithFilter filter hstep
  | nextBatchOrStopped signaled => exact h.nextBatchOrStopped signaled hstep
  | nextBatchTimeout => exact h.nextBatchTimeout hstep
  | nextBatchDecodedWithFilter filter => exact h.nextBatchDecodedWithFilter filter hstep
  | consumerStep => exact h.consumerStep hstep
  | timeout => exact h.timeout hstep

end

theorem runFrom (builder : EventTraceBuilder) (tools : EventTools R D)
    (actions : List (Session.Action R D)) (last : Session R D × List (Observation R D))
    (hrun : Session.runFrom builder tools actions = some last) :
    Accounts (builder.callbackContext tools) builder.streamMode last.1 last.2 :=
  ObservedMachine.run_invariant _ (Accounts (builder.callbackContext tools) builder.streamMode)
    actions (fun action _ _ _ _ h hstep => h.step action hstep) _ [] last
    (Accounts.started _ builder) hrun

end Accounts

/-- A call that brings a filter of its own brings the one that lets all events through, as
`next_batch` and `next_batch_decoded` do. -/
def Session.Action.Plain : Session.Action R D → Prop
  | .nextBatchWithFilter filter => filter = fun _ => true
  | .nextBatchDecodedWithFilter filter => filter = fun _ => true
  | _ => True

def Consumer.Plain : Consumer R D → Prop
  | .drainRaw filter => filter = fun _ => true
  | .drainDecoded filter => filter = fun _ => true
  | _ => True

def Observation.Kept : Observation R D → Prop
  | .takenRaw _ kept | .takenDecoded _ kept => kept = true
  | _ => True

theorem step_plain (ctx : CallbackContext R D) (s : Session R D) (action : Session.Action R D)
    (next : Session R D × List (Observation R D)) (hplain : action.Plain)
    (hs : s.consumer.Plain) (hstep : s.step ctx action = some next) :
    next.1.consumer.Plain ∧ ∀ o ∈ next.2, o.Kept := by
  cases action with
  | consumerStep =>
    simp only [Session.step, Session.consumerStep] at hstep
    split at hstep
    · cases hstep
    all_goals
      obtain ⟨ch, -, hstep⟩ := bind_eq_some_iff.mp hstep
      repeat' split at hstep
    all_goals
      cases hstep
    all_goals
      simp_all [Observation.Kept, Consumer.Plain]
  | traceCallbackFn | callbackStep | nextBatchWithFilter | nextBatchOrStopped | nextBatchTimeout
  | nextBatchDecodedWithFilter | timeout =>
    simp only [Session.step, Session.traceCallbackFn, Session.callbackStep,
      Session.nextBatchWithFilter, Session.nextBatchOrStopped, Session.nextBatch,
      Session.nextBatchTimeout, Session.nextBatchDecodedWithFilter, Session.timeout] at hstep
    repeat' split at hstep
    all_goals
      cases hstep
    all_goals
      simp_all [Observation.Kept, Consumer.Plain, Session.Action.Plain]

theorem runFrom_plain (builder : EventTraceBuilder) (tools : EventTools R D)
    (actions : List (Session.Action R D)) (hplain : ∀ action ∈ actions, action.Plain)
    (last : Session R D × List (Observation R D))
    (hrun : Session.runFrom builder tools actions = some last) : ∀ o ∈ last.2, o.Kept := by
  have hinv := ObservedMachine.run_invariant (Session.step (builder.callbackContext tools))
    (fun s seen => s.consumer.Plain ∧ ∀ o ∈ seen, Observation.Kept o) actions
    (fun action haction s seen next h hstep => by
      obtain ⟨hconsumer, hkept⟩ := step_plain _ s action next (hplain action haction) h.1 hstep
      exact ⟨hconsumer, forall_mem_append.mpr ⟨h.2, hkept⟩⟩)
    (Session.started builder) [] last ⟨trivial, nofun⟩ hrun
  exact hinv.2

theorem refused_eq_nil {α : Type} (seen : List (Observation R D))
    (taken : Observation R D → Option (α × Bool))
    (h : ∀ o ∈ seen, ∀ entry, taken o = some entry → entry.2 = true) :
    marked false (seen.filterMap taken) = [] := by
  rw [marked, map_eq_nil_iff, filter_eq_nil_iff]
  intro entry hentry
  obtain ⟨o, ho, hentry⟩ := mem_filterMap.mp hentry
  rw [h o ho entry hentry]
  decide

def Passes (pids : List UInt32) (calls : List (KernelEventClass × List UInt8))
    (record : EventRecord) : Prop :=
  (pids = [] ∨ record.eventHeader.processId ∈ pids) ∧
    ∀ call ∈ calls, call.1.guid = record.eventHeader.providerId →
      record.eventHeader.eventDescriptor.opcode ∉ call.2

def EventTraceBuilder.configured (config : EventTraceBuilder)
    (calls : List (KernelEventClass × List UInt8)) : EventTraceBuilder :=
  { config with opcodeDrops := [] }.dropAll calls

theorem accepts_iff_passes (config : EventTraceBuilder)
    (calls : List (KernelEventClass × List UInt8)) (tools : EventTools R D)
    (record : EventRecord) :
    ((config.configured calls).callbackContext tools).accepts record = true ↔
      Passes config.processFilter calls record := by
  obtain ⟨drops, heq⟩ := EventTraceBuilder.dropAll_eq { config with opcodeDrops := [] } calls
  have hfilter : (config.configured calls).processFilter = config.processFilter := by
    rw [EventTraceBuilder.configured, heq]
  have hdrop := EventTraceBuilder.isDropped_dropAll { config with opcodeDrops := [] } calls
    record.eventHeader.providerId record.eventHeader.eventDescriptor.opcode
  have hprocess : ((config.configured calls).callbackContext tools).passesProcessFilter record =
      true ↔ config.processFilter = [] ∨ record.eventHeader.processId ∈ config.processFilter := by
    rw [CallbackContext.passesProcessFilter, EventTraceBuilder.callbackContext, hfilter]
    cases config.processFilter with
    | nil => simp [normalizeProcessFilter]
    | cons pid pids => simp [normalizeProcessFilter]
  rw [CallbackContext.accepts, Bool.and_eq_true, hprocess, Bool.not_eq_true', Passes]
  -- the calls are the only source of drops
  refine and_congr_right fun _ => ?_
  change isDropped (config.configured calls).opcodeDrops _ _ = false ↔ _
  rw [← Bool.not_eq_true, EventTraceBuilder.configured, hdrop]
  simp [isDropped]

/-- The events accepted for a stream are those returned or being collected, those refused, queued,
dropped or about to be sent; and what was got and is queued comes in the order of the callbacks.
-/
structure StreamAccounted {α : Type} (b : Books α) (ch : Channel α) : Prop where
  partition : b.accepted.Perm (b.returned ++ b.inHand ++ marked false b.taken ++ ch.contents ++
    marked false b.sent ++ b.pending)
  in_order : (b.returned ++ b.inHand ++ ch.contents).Sublist b.accepted

structure SessionAccounted (ctx : CallbackContext R D) (mode : EventStreamMode)
    (passes : EventRecord → Prop) (s : Session R D) (seen : List (Observation R D)) : Prop where
  raw : mode ≠ .decoded →
    ∃ ch, s.raw = some ch ∧ StreamAccounted ((rawView ctx).books s seen) ch
  decoded : mode ≠ .raw →
    ∃ ch, s.decoded = some ch ∧ StreamAccounted ((decodedView ctx).books s seen) ch
  raw_unselected : mode = .decoded → ((rawView ctx).books s seen).Unused
  decoded_unselected : mode = .raw → ((decodedView ctx).books s seen).Unused
  counter : s.dropped+s.callback.uncounted = UInt64.ofNat (failedSends seen)
  accepted : ∀ record fields, .accepted record fields ∈ seen → passes record
  discarded : ∀ record, .discarded record ∈ seen → ¬passes record
  raw_origin : ∀ event ∈ ((rawView ctx).books s seen).returned, ∃ record fields,
    .accepted record fields ∈ seen ∧ ctx.traceEvent record fields = event
  decoded_origin : ∀ event ∈ ((decodedView ctx).books s seen).returned, ∃ record fields,
    .accepted record fields ∈ seen ∧ ctx.decodedEvent record fields = event
  quiet : s.callback = .idle → s.consumer = .idle →
    s.callback.pendingRaw ctx = [] ∧ s.callback.pendingDecoded ctx = [] ∧
      s.inHandRaw = [] ∧ s.inHandDecoded = [] ∧ s.callback.uncounted = 0

section
variable {α : Type} {b : Books α} {channel : Option (Channel α)}

theorem streamAccounted_of_agree (h : b.Agree channel) (hsome : channel.isSome = true) :
    ∃ ch, channel = some ch ∧ StreamAccounted b ch := by
  obtain ⟨ch, rfl⟩ := isSome_iff_exists.mp hsome
  exact ⟨ch, rfl, Books.Correct.perm h, Books.Correct.sublist h⟩

theorem unused_of_agree (h : b.Agree channel) (hnone : channel.isSome = false) : b.Unused := by
  rw [isSome_eq_false_iff, isNone_iff_eq_none] at hnone
  rwa [hnone] at h

theorem mem_accepted_of_agree (h : b.Agree channel) (a : α) (ha : a ∈ b.returned) :
    a ∈ b.accepted := by
  cases channel with
  | none =>
    rw [Books.Unused.returned h] at ha
    cases ha
  | some ch =>
    apply (Books.Correct.sublist h).subset
    exact mem_append_left _ (mem_append_left _ ha)

end

theorem Accounts.sessionAccounted {ctx : CallbackContext R D} {mode : EventStreamMode}
    {passes : EventRecord → Prop} {s : Session R D} {seen : List (Observation R D)}
    (h : Accounts ctx mode s seen) (hpasses : ∀ record, ctx.accepts record = true ↔ passes record) :
    SessionAccounted ctx mode passes s seen where
  raw hmode := by
    refine streamAccounted_of_agree h.raw ?_
    rw [h.raw_selected]
    cases mode <;> first | rfl | exact absurd rfl hmode
  decoded hmode := by
    refine streamAccounted_of_agree h.decoded ?_
    rw [h.decoded_selected]
    cases mode <;> first | rfl | exact absurd rfl hmode
  raw_unselected hmode := unused_of_agree h.raw (by rw [h.raw_selected, hmode]; rfl)
  decoded_unselected hmode := unused_of_agree h.decoded (by rw [h.decoded_selected, hmode]; rfl)
  counter := h.counter
  accepted record fields hseen := (hpasses record).mp (h.filters _ hseen)
  discarded record hseen hpass := by
    have hfalse : ctx.accepts record = false := h.filters _ hseen
    rw [(hpasses record).mpr hpass] at hfalse
    cases hfalse
  raw_origin event hevent := by
    obtain ⟨o, ho, heq⟩ := mem_filterMap.mp (mem_accepted_of_agree h.raw event hevent)
    cases o with
    | accepted record fields => exact ⟨record, fields, ho, Option.some.inj heq⟩
    | _ => cases heq
  decoded_origin event hevent := by
    obtain ⟨o, ho, heq⟩ := mem_filterMap.mp (mem_accepted_of_agree h.decoded event hevent)
    cases o with
    | accepted record fields => exact ⟨record, fields, ho, Option.some.inj heq⟩
    | _ => cases heq
  quiet hcallback hconsumer := by
    rw [hcallback, Session.inHandRaw, Session.inHandDecoded, hconsumer]
    exact ⟨rfl, rfl, rfl, rfl, rfl⟩

/-- No event of a session is lost, doubled or made up, for every configuration and every
interleaving of callbacks and calls. A consumer without a filter of its own refuses nothing. -/
theorem trace_session_events_accounted (config : EventTraceBuilder)
    (calls : List (KernelEventClass × List UInt8)) (tools : EventTools R D)
    (actions : List (Session.Action R D)) (s : Session R D) (seen : List (Observation R D))
    (hrun : Session.runFrom (config.configured calls) tools actions = some (s, seen)) :
    SessionAccounted ((config.configured calls).callbackContext tools) config.streamMode
        (Passes config.processFilter calls) s seen ∧
      ((∀ action ∈ actions, action.Plain) →
        marked false (seen.filterMap Observation.rawTaken) = [] ∧
          marked false (seen.filterMap Observation.decodedTaken) = []) := by
  obtain ⟨drops, heq⟩ := EventTraceBuilder.dropAll_eq { config with opcodeDrops := [] } calls
  have hmode : (config.configured calls).streamMode = config.streamMode := by
    rw [EventTraceBuilder.configured, heq]
  have haccounts := Accounts.runFrom (config.configured calls) tools actions (s, seen) hrun
  rw [hmode] at haccounts
  refine ⟨haccounts.sessionAccounted (accepts_iff_passes config calls tools), ?_⟩
  -- nothing is refused without a filter, so nothing taken is marked as refused
  intro hplain
  have hkept := runFrom_plain (config.configured calls) tools actions hplain (s, seen) hrun
  refine ⟨refused_eq_nil seen _ ?_, refused_eq_nil seen _ ?_⟩
  · intro o ho entry hentry
    have hok := hkept o ho
    cases o with
    | takenRaw event kept =>
      cases hentry
      exact hok
    | _ => cases hentry
  · intro o ho entry hentry
    have hok := hkept o ho
    cases o with
    | takenDecoded event kept =>
      cases hentry
      exact hok
    | _ => cases hentry

def tcpIpRecord (id : UInt16) (opcode : UInt8) : EventRecord where
  eventHeader :=
    { flags := 0x40, threadId := 1, processId := 7, timeStamp := 0,
      providerId := KernelEventClass.tcpIp.guid,
      eventDescriptor :=
        { id, version := 2, channel := 0, level := 0, opcode, task := 0, keyword := 0 } }
  extendedData := []
  userData := []

def idTools : EventTools UInt16 UInt8 where
  tdh := ⟨fun _ _ => (0, 0), fun _ _ => (0, []), fun _ _ => (0, 0), fun _ _ => (0, [])⟩
  decodeFromRecordParts := fun _ _ opcode _ _ _ => opcode
  traceEvent := fun record _ => record.eventHeader.eventDescriptor.id

/-- Two connects around a dropped send, with both streams and room for one event. -/
theorem trace_session_events_accounted_full_stream :
    let config : EventTraceBuilder :=
      { name := "Connections".toList, channelCapacity := 1, streamMode := .both,
        processFilter := [7] }
    let calls := [(KernelEventClass.tcpIp, [10, 11])]
    let actions : List (Session.Action UInt16 UInt8) :=
      [.traceCallbackFn (tcpIpRecord 1 12), .callbackStep, .callbackStep,
        .traceCallbackFn (tcpIpRecord 2 10), .nextBatchTimeout,
        .traceCallbackFn (tcpIpRecord 3 12), .consumerStep, .callbackStep, .callbackStep,
        .callbackStep, .consumerStep, .consumerStep]
    ∃ s seen, Session.runFrom (config.configured calls) idTools actions = some (s, seen) ∧
      s.dropped = 1 ∧ seen.filterMap Observation.rawReturned = [[1, 3]] ∧
      SessionAccounted ((config.configured calls).callbackContext idTools) .both
        (Passes [7] calls) s seen := by
  intro config calls actions
  refine ⟨_, _, rfl, by decide, rfl, ?_⟩
  exact (trace_session_events_accounted config calls idTools actions _ _ rfl).1

end WindowsErg.Etw
