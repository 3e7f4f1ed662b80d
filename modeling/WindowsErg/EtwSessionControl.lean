import WindowsErg.CallProgram
import WindowsErg.EtwSessionAccounting
import WindowsErg.EtwSessionStart

/-! `run_until_stopped` and `request_rundown` of `src/etw/session.rs`. -/
namespace WindowsErg.Etw
open List TextScan BoundedChannel CallProgram
variable {R D : Type}

inductive RunError where
  | wait (code : UInt32)
  | consumeFailed (reason : Text)
  deriving DecidableEq

inductive RunPhase where
  | checking
  | draining
  | sleeping
  | returned (result : Except RunError Unit)

structure Runner (R D : Type) where
  session : Session R D
  phase : RunPhase

namespace Runner

abbrev StepResult (R D : Type) := Option (Runner R D × List (Observation R D))

def callback (runner : Runner R D) (next : Etw.StepResult R D) : StepResult R D :=
  next.map fun (session, seen) => (⟨session, runner.phase⟩, seen)

/-- The check of the stop signal with the answer of the wait, and the call of `next_batch` up to its
first receive. -/
def isSignaled (runner : Runner R D) (answer : Except UInt32 Bool) : StepResult R D :=
  match runner.phase, answer with
  | .checking, .error code => some (⟨runner.session, .returned (.error (.wait code))⟩, [])
  | .checking, .ok true =>
    -- `out_events.clear()` in front of the return
    some (⟨{ runner.session with outRaw := [] }, .returned (.ok ())⟩, [])
  | .checking, .ok false =>
    match runner.session.raw with
    -- `next_batch` fails before it clears the buffer
    | none => some (⟨runner.session, .returned (.error (.consumeFailed Session.rawDisabled))⟩, [])
    | some _ => runner.session.nextBatch.map fun (session, seen) => (⟨session, .draining⟩, seen)
  | _, _ => none

def drain (runner : Runner R D) : StepResult R D :=
  match runner.phase with
  | .draining => runner.session.consumerStep.map fun (session, seen) =>
      match session.consumer with
      | .idle => (⟨session, .sleeping⟩, seen)
      | _ => (⟨session, .draining⟩, seen)
  | _ => none

def wake (runner : Runner R D) : StepResult R D :=
  match runner.phase with
  | .sleeping => some (⟨runner.session, .checking⟩, [])
  | _ => none

inductive Action where
  | traceCallbackFn (record : EventRecord)
  | callbackStep
  | isSignaled (answer : Except UInt32 Bool)
  | drain
  | wake

def step (ctx : CallbackContext R D) (runner : Runner R D) : Action → StepResult R D
  | .traceCallbackFn record => runner.callback (runner.session.traceCallbackFn ctx record)
  | .callbackStep => runner.callback (runner.session.callbackStep ctx)
  | .isSignaled answer => runner.isSignaled answer
  | .drain => runner.drain
  | .wake => runner.wake

def runUntilStopped (ctx : CallbackContext R D) (session : Session R D) (actions : List Action) :
    StepResult R D :=
  ObservedMachine.run (step ctx) ⟨session, .checking⟩ actions

end Runner

def drainedRaw (seen : List (Observation R D)) : List R :=
  (seen.filterMap Observation.rawTaken).map Prod.fst

def batchesRaw (seen : List (Observation R D)) : List (List R) :=
  seen.filterMap Observation.rawReturned

theorem drainedRaw_append (front back : List (Observation R D)) :
    drainedRaw (front ++ back) = drainedRaw front ++ drainedRaw back := by
  rw [drainedRaw, filterMap_append, map_append]
  rfl

theorem batchesRaw_append (front back : List (Observation R D)) :
    batchesRaw (front ++ back) = batchesRaw front ++ batchesRaw back :=
  filterMap_append

structure CallbackFrame (s : Session R D) (next : Session R D × List (Observation R D)) : Prop where
  consumer : next.1.consumer = s.consumer
  outRaw : next.1.outRaw = s.outRaw
  drained : drainedRaw next.2 = []
  batches : batchesRaw next.2 = []

theorem traceCallbackFn_frame {ctx : CallbackContext R D} {s : Session R D} {record : EventRecord}
    {next : Session R D × List (Observation R D)} (h : s.traceCallbackFn ctx record = some next) :
    CallbackFrame s next := by
  unfold Session.traceCallbackFn at h
  split at h
  · split_ifs at h
    all_goals
      cases h
      exact ⟨rfl, rfl, rfl, rfl⟩
  · cases h

theorem callbackStep_frame {ctx : CallbackContext R D} {s : Session R D}
    {next : Session R D × List (Observation R D)} (h : s.callbackStep ctx = some next) :
    CallbackFrame s next := by
  unfold Session.callbackStep at h
  cases hcallback : s.callback with
  | idle =>
    rw [hcallback] at h
    cases h
  | countDecoded record fields | countRaw =>
    rw [hcallback] at h
    cases h
    exact ⟨rfl, rfl, rfl, rfl⟩
  | sendDecoded record fields | sendRaw record fields =>
    rw [hcallback] at h
    dsimp only at h
    split at h
    · cases h
      exact ⟨rfl, rfl, rfl, rfl⟩
    · split at h
      · cases h
        exact ⟨rfl, rfl, rfl, rfl⟩
      · cases h
        exact ⟨rfl, rfl, rfl, rfl⟩

/-- Between two rounds the drained events are those of the batches so far, and the buffer has the last
batch; during a round it has what was drained in this one. -/
def RunnerBooks (runner : Runner R D) (seen : List (Observation R D)) : Prop :=
  match runner.phase with
  | .draining => runner.session.consumer = .drainRaw (fun _ => true) ∧
      drainedRaw seen = (batchesRaw seen).flatten ++ runner.session.outRaw
  | .returned (.ok _) => drainedRaw seen = (batchesRaw seen).flatten ∧ runner.session.outRaw = []
  | .checking | .sleeping | .returned (.error _) => runner.session.consumer = .idle ∧
      drainedRaw seen = (batchesRaw seen).flatten ∧
      ∀ batch, (batchesRaw seen).getLast? = some batch → runner.session.outRaw = batch

section Books
variable {ctx : CallbackContext R D} {runner : Runner R D} {seen : List (Observation R D)}

section
variable (h : RunnerBooks runner seen)
include h

theorem RunnerBooks.callback {result : StepResult R D}
    (hframe : ∀ next, result = some next → CallbackFrame runner.session next)
    {next : Runner R D × List (Observation R D)} (hstep : runner.callback result = some next) :
    RunnerBooks next.1 (seen ++ next.2) := by
  obtain ⟨after, hafter, rfl⟩ := Option.map_eq_some_iff.mp hstep
  have hf := hframe after hafter
  unfold RunnerBooks at h ⊢
  simp only [drainedRaw_append, batchesRaw_append, hf.drained, hf.batches, hf.consumer, hf.outRaw,
    append_nil]
  exact h

theorem RunnerBooks.isSignaled {answer : Except UInt32 Bool}
    {next : Runner R D × List (Observation R D)} (hstep : runner.isSignaled answer = some next) :
    RunnerBooks next.1 (seen ++ next.2) := by
  obtain ⟨session, phase⟩ := runner
  cases phase with
  | draining | sleeping | returned result => cases hstep
  | checking =>
    obtain ⟨hidle, hdrained, hlast⟩ := h
    cases answer with
    | error code =>
      cases hstep
      rw [append_nil]
      exact ⟨hidle, hdrained, hlast⟩
    | ok signaled =>
      cases signaled with
      | true =>
        cases hstep
        rw [append_nil]
        exact ⟨hdrained, rfl⟩
      | false =>
        unfold Runner.isSignaled at hstep
        dsimp only at hstep hidle hlast
        cases hraw : session.raw with
        | none =>
          rw [hraw] at hstep
          cases hstep
          rw [append_nil]
          exact ⟨hidle, hdrained, hlast⟩
        | some ch =>
          rw [hraw] at hstep
          rw [Session.nextBatch, Session.nextBatchWithFilter, hidle, hraw] at hstep
          cases hstep
          rw [append_nil]
          -- a new round starts with an empty buffer
          refine ⟨rfl, ?_⟩
          rw [hdrained]
          exact (append_nil _).symm

theorem RunnerBooks.drain
    {next : Runner R D × List (Observation R D)} (hstep : runner.drain = some next) :
    RunnerBooks next.1 (seen ++ next.2) := by
  obtain ⟨session, phase⟩ := runner
  cases phase with
  | checking | sleeping | returned result => cases hstep
  | draining =>
    obtain ⟨hconsumer, hdrained⟩ := h
    obtain ⟨after, hafter, rfl⟩ := Option.map_eq_some_iff.mp hstep
    dsimp only at hconsumer hdrained hafter
    rw [Session.consumerStep, hconsumer] at hafter
    obtain ⟨ch, -, hreceive⟩ := Option.bind_eq_some_iff.mp hafter
    cases hrecv : ch.tryRecv with
    | none =>
      -- nothing is left to receive: the batch is returned
      rw [hrecv] at hreceive
      cases hreceive
      refine ⟨rfl, ?_, ?_⟩
      · rw [drainedRaw_append, batchesRaw_append, flatten_append, hdrained]
        simp [drainedRaw, batchesRaw, Observation.rawTaken, Observation.rawReturned]
      · intro batch hbatch
        rw [batchesRaw_append] at hbatch
        have hreturned : (batchesRaw seen ++ [session.outRaw]).getLast? = some batch := hbatch
        rw [List.getLast?_concat] at hreturned
        exact Option.some.inj hreturned
    | some received =>
      rw [hrecv] at hreceive
      cases hreceive
      refine ⟨rfl, ?_⟩
      rw [drainedRaw_append, batchesRaw_append, hdrained]
      simp [drainedRaw, batchesRaw, Observation.rawTaken, Observation.rawReturned]

theorem RunnerBooks.step (action : Runner.Action)
    {next : Runner R D × List (Observation R D)} (hstep : runner.step ctx action = some next) :
    RunnerBooks next.1 (seen ++ next.2) := by
  cases action with
  | traceCallbackFn record => exact h.callback (fun _ => traceCallbackFn_frame) hstep
  | callbackStep => exact h.callback (fun _ => callbackStep_frame) hstep
  | isSignaled answer => exact h.isSignaled hstep
  | drain => exact h.drain hstep
  | wake =>
    obtain ⟨session, phase⟩ := runner
    cases phase with
    | checking | draining | returned result => cases hstep
    | sleeping =>
      cases hstep
      rw [append_nil]
      exact h

end

end Books

theorem runUntilStopped_books {ctx : CallbackContext R D} {session : Session R D}
    (hidle : session.consumer = .idle) {actions : List Runner.Action}
    {last : Runner R D × List (Observation R D)}
    (hrun : Runner.runUntilStopped ctx session actions = some last) : RunnerBooks last.1 last.2 := by
  have hstart : RunnerBooks (⟨session, .checking⟩ : Runner R D) [] := by
    refine ⟨hidle, rfl, ?_⟩
    intro batch hbatch
    cases hbatch
  exact ObservedMachine.run_invariant (Runner.step ctx) RunnerBooks actions
    (fun action _ _ _ _ hbooks hstep => hbooks.step action hstep) _ [] last hstart hrun

theorem subperm_getLast_iff {α : Type} {lists : List (List α)} {last : List α}
    (h : lists.getLast? = some last) : lists.flatten.Subperm last ↔ lists.flatten = last := by
  obtain ⟨front, rfl⟩ : ∃ front, lists = front ++ [last] := by
    obtain ⟨front, hfront⟩ := List.getLast?_eq_some_iff.mp h
    exact ⟨front, hfront⟩
  rw [flatten_append, flatten_singleton]
  constructor
  · intro hsub
    have hlength := hsub.length_le
    rw [length_append] at hlength
    rw [eq_nil_of_length_eq_zero (by omega : front.flatten.length = 0), nil_append]
  · intro heq
    rw [heq]

def singleRawSession : EventTraceBuilder :=
  { name := "Connections".toList, channelCapacity := 1, streamMode := .raw }

structure SetEnableFlags where
  mask : List UInt32

abbrev SetEnableFlags.Answer : SetEnableFlags → Type := fun _ => UInt32

/-- The world is the group mask of the session. A call that fails leaves it as it is. -/
def rundownSystem : System SetEnableFlags SetEnableFlags.Answer (List UInt32) where
  step c w status w' := w' = if status = errorSuccess then c.mask else w
  interfere _ _ := False

abbrev RundownProgram (α : Type) := Program SetEnableFlags SetEnableFlags.Answer α

def groupMask (flags : UInt32) : List UInt32 := flags :: List.replicate 7 0

def setEnableFlags (name : Text) : List UInt32 → RundownProgram (Except StartError Unit)
  | [] => pure (.ok ())
  | flags :: others => do
    let status ← Program.request (SetEnableFlags.mk (groupMask flags))
    if status ≠ errorSuccess then
      pure (.error (.sessionStartFailed ⟨name,
        "TraceSetInformation(TraceSystemTraceEnableFlagsInfo) failed".toList,
        some status.toInt32⟩))
    else setEnableFlags name others

def EventTrace.requestRundown (trace : EventTrace) : RundownProgram (Except StartError Unit) :=
  if trace.enableFlags = 0 then
    pure (.error (.sessionStartFailed ⟨trace.name,
      "A rundown needs a kernel session with system providers".toList, none⟩))
  else setEnableFlags trace.name [0, trace.enableFlags]

theorem rundownSystem_quiet (w w' : List UInt32) : ¬ rundownSystem.interfere w w' := id

theorem setEnableFlags_cons_error {name : Text} {flags : UInt32} {others : List UInt32}
    {w w' : List UInt32} {steps : List (SetEnableFlags × List UInt32)} {e : StartError}
    (h : Traces rundownSystem (setEnableFlags name (flags :: others)) w steps (.error e) w') :
    (steps.length = 1 ∧ w' = w) ∨
      ∃ rest, steps.length = rest.length+1 ∧
        Traces rundownSystem (setEnableFlags name others) (groupMask flags) rest (.error e) w' := by
  rw [setEnableFlags] at h
  obtain ⟨status, w₁, first, rest, rfl, hcall, hafter⟩ := h.of_bind
  obtain ⟨rfl, hw₁⟩ := Traces.request_inv rundownSystem_quiet hcall
  have hworld : w₁ = if status = errorSuccess then groupMask flags else w := hw₁
  by_cases hfailed : status ≠ errorSuccess
  · -- the loop ends here, and the call has changed nothing
    rw [if_pos hfailed] at hafter
    obtain ⟨-, rfl, rfl⟩ := Traces.done_inv rundownSystem_quiet hafter
    rw [if_neg hfailed] at hworld
    exact Or.inl ⟨rfl, hworld⟩
  · rw [if_neg hfailed] at hafter
    rw [if_pos (not_not.mp hfailed)] at hworld
    subst hworld
    exact Or.inr ⟨rest, rfl, hafter⟩

/-- A failed request leaves the flags as they were exactly if it failed before the second call, or no
flag was set before it. -/
theorem failed_rundown_unchanged_iff (trace : EventTrace) (w w' : List UInt32)
    (steps : List (SetEnableFlags × List UInt32)) (e : StartError)
    (h : Traces rundownSystem trace.requestRundown w steps (.error e) w') :
    w' = w ↔ steps.length ≤ 1 ∨ w = groupMask 0 := by
  unfold EventTrace.requestRundown at h
  split_ifs at h with hflags
  · obtain ⟨-, rfl, rfl⟩ := Traces.done_inv rundownSystem_quiet h
    exact iff_of_true rfl (Or.inl (Nat.zero_le 1))
  · rcases setEnableFlags_cons_error h with ⟨hlength, rfl⟩ | ⟨rest, hlength, hrest⟩
    · exact iff_of_true rfl (Or.inl hlength.le)
    · -- the flags are cleared and the second call fails
      rcases setEnableFlags_cons_error hrest with ⟨hone, rfl⟩ | ⟨last, -, hlast⟩
      · have htwo : ¬ steps.length ≤ 1 := by omega
        rw [or_iff_right htwo]
        exact eq_comm
      · obtain ⟨hok, -⟩ := Traces.done_inv rundownSystem_quiet hlast
        cases hok

def networkTrace : EventTrace := ⟨"NT Kernel Logger".toList, 1, false, 0x10000, true⟩

def rundownError (code : Int32) : StartError :=
  .sessionStartFailed ⟨"NT Kernel Logger".toList,
    "TraceSetInformation(TraceSystemTraceEnableFlagsInfo) failed".toList, some code⟩

theorem failed_rundown_unchanged_refused :
    ∃ steps, Traces rundownSystem networkTrace.requestRundown (groupMask 0x10000) steps
        (.error (rundownError 5)) (groupMask 0x10000) ∧ groupMask 0x10000 = groupMask 0x10000 := by
  have hrun : Traces rundownSystem networkTrace.requestRundown (groupMask 0x10000)
      [(⟨groupMask 0⟩, groupMask 0x10000)] (.error (rundownError 5)) (groupMask 0x10000) :=
    .call (x := (5 : UInt32)) rfl (.done _ _)
  exact ⟨_, hrun, (failed_rundown_unchanged_iff networkTrace _ _ _ _ hrun).mpr (Or.inl le_rfl)⟩

/-- The second call fails: the request returns an error and the session traces nothing any more. -/
theorem failed_rundown_clears_flags :
    ∃ steps, Traces rundownSystem networkTrace.requestRundown (groupMask 0x10000) steps
        (.error (rundownError 5)) (groupMask 0) ∧ groupMask 0 ≠ groupMask 0x10000 := by
  have hclear : rundownSystem.step ⟨groupMask 0⟩ (groupMask 0x10000) (0 : UInt32) (groupMask 0) := rfl
  have hfail : rundownSystem.step ⟨groupMask 0x10000⟩ (groupMask 0) (5 : UInt32) (groupMask 0) := rfl
  have hsecond : Traces rundownSystem (setEnableFlags networkTrace.name [0x10000]) (groupMask 0)
      [(⟨groupMask 0x10000⟩, groupMask 0)] (.error (rundownError 5)) (groupMask 0) :=
    .call (x := (5 : UInt32)) hfail (.done _ _)
  refine ⟨[(⟨groupMask 0⟩, groupMask 0x10000), (⟨groupMask 0x10000⟩, groupMask 0)], ?_, by decide⟩
  refine .call (x := (0 : UInt32)) hclear ?_
  exact hsecond

end WindowsErg.Etw
