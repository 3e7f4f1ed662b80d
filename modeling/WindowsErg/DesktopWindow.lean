import Mathlib.Data.List.Basic

/-! The window procedure of `src/desktop/window.rs`, which is re-entered whenever a handler sends a
message to its own window. -/

namespace WindowsErg.Desktop
open List

inductive HandlerEvent where
  | called
  | returned
  | dropped
  deriving DecidableEq

structure WindowState where
  userData : Bool
  isWindow : Bool
  trace : List HandlerEvent

def WindowState.log (w : WindowState) (event : HandlerEvent) : WindowState :=
  { w with trace := w.trace ++ [event] }

def WindowState.callHandler (w : WindowState) (handle : WindowState → WindowState) : WindowState :=
  (handle (w.log .called)).log .returned

def WindowState.freeSlot (w : WindowState) : WindowState :=
  { w with userData := false }.log .dropped

inductive WindowMessage where
  | ncCreate
  | ncDestroy
  | other (msg : UInt32)
  deriving DecidableEq

/-- `handler_window_proc`; `handle` and `default` are what happens while the handler and
`DefWindowProcW` run, and `handled` says that the handler gave a result. -/
def handlerWindowProc (msg : WindowMessage) (handled : Bool) (handle default : WindowState → WindowState)
    (w : WindowState) : WindowState :=
  let w := if msg = .ncCreate then { w with userData := true } else w
  -- the slot is read before the handler runs, and freed by this copy
  let slot := w.userData
  let w := if slot then w.callHandler handle else w
  let w := if msg = .ncDestroy && slot then w.freeSlot else w
  if slot && handled then w else default w

/-- What happens to a window in a stretch of time, with what happens inside each delivery.
`WM_NCCREATE` comes with the arguments of `CreateWindowExW` and is not sent by others. -/
inductive Script where
  | done
  | seq (first second : Script)
  | send (msg : UInt32) (handled : Bool) (handle default : Script)
  | sendNcDestroy (handled : Bool) (handle default : Script)
  | destroy (before : Script) (handled : Bool) (handle default : Script)

namespace Script

def run : Script → WindowState → WindowState
  | done, w => w
  | seq first second, w => second.run (first.run w)
  | send msg handled handle default, w =>
    if w.isWindow then handlerWindowProc (.other msg) handled handle.run default.run w else w
  | sendNcDestroy handled handle default, w =>
    if w.isWindow then handlerWindowProc .ncDestroy handled handle.run default.run w else w
  -- `DestroyWindow` fails for a window that is gone
  | destroy before handled handle default, w =>
    if w.isWindow then
      { handlerWindowProc .ncDestroy handled handle.run default.run (before.run w) with isWindow := false }
    else w

def quiet : Script → Bool
  | done => true
  | seq first second => first.quiet && second.quiet
  | send _ handled handle default => handle.quiet && (handled || default.quiet)
  | sendNcDestroy .. | destroy .. => false

/-- The first `WM_NCDESTROY` does not come while the handler runs. -/
def orderly : Script → Bool
  | done => true
  | seq first second => first.orderly && (!first.quiet || second.orderly)
  | send _ handled handle default => handle.quiet && (handled || default.orderly)
  | sendNcDestroy _ handle _ => handle.quiet
  | destroy before _ handle _ => before.orderly && (!before.quiet || handle.quiet)

end Script

structure WindowLife where
  create : Bool × Script × Script
  script : Script
  close : Script × Bool × Script × Script

namespace WindowLife

def afterCreate (life : WindowLife) : Script :=
  .seq life.script (.destroy life.close.1 life.close.2.1 life.close.2.2.1 life.close.2.2.2)

def run (life : WindowLife) : WindowState :=
  life.afterCreate.run
    (handlerWindowProc .ncCreate life.create.1 life.create.2.1.run life.create.2.2.run ⟨false, true, []⟩)

def whole (life : WindowLife) : Script :=
  .seq (.send 0x81 life.create.1 life.create.2.1 life.create.2.2) life.afterCreate

theorem run_eq (life : WindowLife) : life.run = life.whole.run ⟨true, true, []⟩ := rfl

end WindowLife

/-- The handler is dropped once, after all its calls have returned, and not called again. -/
def Outlives (trace : List HandlerEvent) : Prop :=
  ∃ before after, trace = before ++ .dropped :: after ∧ .dropped ∉ before ∧ .dropped ∉ after ∧
    .called ∉ after ∧ before.count .called = before.count .returned

def DropsRunning (trace : List HandlerEvent) : Prop :=
  ∃ before after, trace = before ++ .dropped :: after ∧ .dropped ∉ before ∧
    before.count .called ≠ before.count .returned

theorem DropsRunning.mono {trace longer : List HandlerEvent} (h : DropsRunning trace)
    (hlonger : trace <+: longer) : DropsRunning longer := by
  obtain ⟨before, after, rfl, hbefore, hcount⟩ := h
  obtain ⟨later, rfl⟩ := hlonger
  exact ⟨before, after ++ later, append_assoc _ _ _, hbefore, hcount⟩

theorem DropsRunning.not_outlives {trace : List HandlerEvent} (h : DropsRunning trace) :
    ¬ Outlives trace := by
  obtain ⟨before, after, rfl, -, hcount⟩ := h
  rintro ⟨first, later, heq, hfirst, hlater, -, hbalanced⟩
  obtain ⟨rfl, -⟩ := (append_cons_inj_of_notMem hfirst hlater).mp heq.symm
  exact hcount hbalanced

namespace WindowState

structure Holds (w : WindowState) (depth : ℕ) : Prop where
  userData : w.userData = true
  isWindow : w.isWindow = true
  kept : .dropped ∉ w.trace
  depth_eq : w.trace.count .called = w.trace.count .returned + depth

structure Freed (w : WindowState) : Prop where
  userData : w.userData = false
  outlives : Outlives w.trace

def Outcome (w : WindowState) (depth : ℕ) (quiet orderly : Bool) : Prop :=
  if quiet then w.Holds depth
  else if depth = 0 ∧ orderly then w.Freed
  else DropsRunning w.trace

theorem count_log (w : WindowState) (event other : HandlerEvent) :
    (w.log event).trace.count other = w.trace.count other + if event = other then 1 else 0 := by
  simp [log, count_append, count_singleton]

theorem dropped_notMem_log {w : WindowState} (hw : .dropped ∉ w.trace) (event : HandlerEvent)
    (h : event ≠ .dropped) : .dropped ∉ (w.log event).trace := by
  simp [log, hw, h.symm]

theorem prefix_log (w : WindowState) (event : HandlerEvent) : w.trace <+: (w.log event).trace :=
  prefix_append _ _

structure Tame (f : WindowState → WindowState) : Prop where
  adds : ∀ w, w.trace <+: (f w).trace
  of_freed : ∀ w, w.userData = false → (f w).userData = false ∧ (f w).trace = w.trace

theorem tame_id : Tame id := ⟨fun _ => prefix_rfl, fun _ h => ⟨h, rfl⟩⟩

theorem tame_gone : Tame fun w => { w with isWindow := false } :=
  ⟨fun _ => prefix_rfl, fun _ h => ⟨h, rfl⟩⟩

theorem Tame.comp {f g : WindowState → WindowState} (hg : Tame g) (hf : Tame f) : Tame (g ∘ f) := by
  constructor
  · intro w
    exact (hf.adds w).trans (hg.adds (f w))
  · intro w hw
    obtain ⟨hdata, htrace⟩ := hf.of_freed w hw
    obtain ⟨hdata', htrace'⟩ := hg.of_freed (f w) hdata
    exact ⟨hdata', htrace'.trans htrace⟩

theorem tame_handlerWindowProc (msg : WindowMessage) (hmsg : msg ≠ .ncCreate) (handled : Bool)
    {handle default : WindowState → WindowState} (hhandle : Tame handle) (hdefault : Tame default) :
    Tame (handlerWindowProc msg handled handle default) := by
  constructor
  · intro w
    have hcall : w.trace <+: (w.callHandler handle).trace :=
      (prefix_log w _).trans ((hhandle.adds _).trans (prefix_log _ _))
    have hfree (w : WindowState) : w.trace <+: w.freeSlot.trace := prefix_log _ _
    have hend (w : WindowState) := hdefault.adds w
    unfold handlerWindowProc
    grind [List.IsPrefix.trans]
  · -- without user data every message goes to the default procedure
    intro w hw
    have hproc : handlerWindowProc msg handled handle default w = default w := by
      simp [handlerWindowProc, hmsg, hw]
    rw [hproc]
    exact hdefault.of_freed w hw

theorem Tame.ifWindow {f : WindowState → WindowState} (h : Tame f) :
    Tame fun w => if w.isWindow then f w else w := by
  constructor
  · intro w
    split
    · exact h.adds w
    · exact prefix_rfl
  · intro w hw
    split
    · exact h.of_freed w hw
    · exact ⟨hw, rfl⟩

theorem tame_run (script : Script) : Tame script.run := by
  induction script with
  | done => exact tame_id
  | seq first second ihfirst ihsecond => exact ihsecond.comp ihfirst
  | send msg handled handle default ihhandle ihdefault =>
    exact (tame_handlerWindowProc (.other msg) nofun handled ihhandle ihdefault).ifWindow
  | sendNcDestroy handled handle default ihhandle ihdefault =>
    exact (tame_handlerWindowProc .ncDestroy nofun handled ihhandle ihdefault).ifWindow
  | destroy before handled handle default ihbefore ihhandle ihdefault =>
    have hproc := (tame_handlerWindowProc .ncDestroy nofun handled ihhandle ihdefault).comp ihbefore
    exact (tame_gone.comp hproc).ifWindow

section
variable {w : WindowState} {depth : ℕ} {quiet orderly : Bool}

theorem Outcome.keep (h : w.Outcome depth false orderly) {f : WindowState → WindowState} (hf : Tame f) :
    (f w).Outcome depth false orderly := by
  by_cases hfreed : depth = 0 ∧ orderly = true
  · have h : w.Freed := by simpa [Outcome, hfreed] using h
    obtain ⟨hdata, htrace⟩ := hf.of_freed w h.userData
    have hout : (f w).Freed := ⟨hdata, htrace ▸ h.outlives⟩
    simpa [Outcome, hfreed] using hout
  · have h : DropsRunning w.trace := by simpa [Outcome, hfreed] using h
    simpa [Outcome, hfreed] using h.mono (hf.adds w)

theorem Outcome.andThen (h : w.Outcome depth quiet orderly) (hquiet : quiet = true → orderly = true)
    {quiet' orderly' : Bool} {f : WindowState → WindowState} (hf : Tame f)
    (hnext : w.Holds depth → (f w).Outcome depth quiet' orderly') :
    (f w).Outcome depth (quiet && quiet') (orderly && (!quiet || orderly')) := by
  cases quiet with
  | true =>
    rw [hquiet rfl]
    exact hnext h
  | false =>
    rw [Bool.not_false, Bool.true_or, Bool.and_true]
    exact h.keep hf

theorem Outcome.callHandler {handle : WindowState → WindowState}
    (h : (handle (w.log .called)).Outcome (depth + 1) quiet orderly) :
    (w.callHandler handle).Outcome depth quiet quiet := by
  cases quiet with
  | true =>
    have h : (handle (w.log .called)).Holds (depth + 1) := h
    have hdepth := h.depth_eq
    refine Holds.mk h.userData h.isWindow ?_ ?_
    · exact dropped_notMem_log h.kept .returned nofun
    · rw [WindowState.callHandler, count_log, count_log, if_neg nofun, if_pos rfl]
      omega
  | false =>
    have h : DropsRunning (handle (w.log .called)).trace := h
    have hcall : DropsRunning (w.callHandler handle).trace := h.mono (prefix_log _ _)
    simpa [Outcome] using hcall

theorem Outcome.freeSlot (h : w.Outcome depth quiet quiet) : w.freeSlot.Outcome depth false quiet := by
  cases quiet with
  | true =>
    have h : w.Holds depth := h
    have hdepth := h.depth_eq
    -- the handler is dropped in time only if none of its calls is under way
    by_cases hzero : depth = 0
    · have hfreed : w.freeSlot.Freed := ⟨rfl, w.trace, [], rfl, h.kept, nofun, nofun, by omega⟩
      simpa [Outcome, hzero] using hfreed
    · have hdrops : DropsRunning w.freeSlot.trace := ⟨w.trace, [], rfl, h.kept, by omega⟩
      simpa [Outcome, hzero] using hdrops
  | false =>
    have h : DropsRunning w.trace := by simpa [Outcome] using h
    have hfree : DropsRunning w.freeSlot.trace := h.mono (prefix_log _ _)
    simpa [Outcome] using hfree

variable {handle default : WindowState → WindowState} {handled : Bool}

theorem Outcome.other {quiet' orderly' : Bool} (hw : w.Holds depth) (msg : UInt32)
    (hhandle : (handle (w.log .called)).Outcome (depth + 1) quiet orderly)
    (hdefault : ∀ w : WindowState, w.Holds depth → (default w).Outcome depth quiet' orderly')
    (htame : Tame default) :
    (handlerWindowProc (.other msg) handled handle default w).Outcome depth
      (quiet && (handled || quiet')) (quiet && (handled || orderly')) := by
  have hcall := hhandle.callHandler
  have hproc : handlerWindowProc (.other msg) handled handle default w =
      if handled then w.callHandler handle else default (w.callHandler handle) := by
    simp [handlerWindowProc, hw.userData]
  rw [hproc]
  cases handled with
  | true => simpa using hcall
  | false =>
    have h := hcall.andThen id htame (hdefault _)
    cases quiet <;> exact h

theorem Outcome.ncDestroy (hw : w.Holds depth)
    (hhandle : (handle (w.log .called)).Outcome (depth + 1) quiet orderly) (htame : Tame default) :
    (handlerWindowProc .ncDestroy handled handle default w).Outcome depth false quiet := by
  have hfree := hhandle.callHandler.freeSlot
  have hproc : handlerWindowProc .ncDestroy handled handle default w =
      if handled then (w.callHandler handle).freeSlot else default (w.callHandler handle).freeSlot := by
    simp [handlerWindowProc, hw.userData]
  rw [hproc]
  cases handled with
  | true => exact hfree
  | false => exact hfree.keep htame

theorem Holds.log_called (hw : w.Holds depth) : (w.log .called).Holds (depth + 1) := by
  have hdepth := hw.depth_eq
  refine ⟨hw.userData, hw.isWindow, ?_, ?_⟩
  · exact dropped_notMem_log hw.kept .called nofun
  · rw [count_log, count_log, if_pos rfl, if_neg nofun]
    omega

end
end WindowState

open WindowState

theorem Script.orderly_of_quiet {script : Script} (h : script.quiet = true) : script.orderly = true := by
  induction script with
  | done => rfl
  | seq first second ihfirst ihsecond => grind [quiet, orderly]
  | send msg handled handle default ihhandle ihdefault => grind [quiet, orderly]
  | sendNcDestroy | destroy => exact nomatch h

theorem Script.outcome_run (script : Script) {w : WindowState} {depth : ℕ} (hw : w.Holds depth) :
    (script.run w).Outcome depth script.quiet script.orderly := by
  induction script generalizing w depth with
  | done => exact hw
  | seq first second ihfirst ihsecond =>
    exact (ihfirst hw).andThen orderly_of_quiet (tame_run second) ihsecond
  | send msg handled handle default ihhandle ihdefault =>
    rw [run, if_pos hw.isWindow]
    exact Outcome.other hw msg (ihhandle hw.log_called) (fun _ => ihdefault) (tame_run default)
  | sendNcDestroy handled handle default ihhandle ihdefault =>
    rw [run, if_pos hw.isWindow]
    exact Outcome.ncDestroy hw (ihhandle hw.log_called) (tame_run default)
  | destroy before handled handle default ihbefore ihhandle ihdefault =>
    rw [run, if_pos hw.isWindow]
    have htame := tame_handlerWindowProc .ncDestroy nofun handled (tame_run handle) (tame_run default)
    have h := (ihbefore hw).andThen orderly_of_quiet htame fun hbefore =>
      Outcome.ncDestroy hbefore (ihhandle hbefore.log_called) (tame_run default)
    rw [Bool.and_false] at h
    exact h.keep tame_gone

/-- The handler outlives its calls exactly when the first `WM_NCDESTROY` comes while none of them
runs. -/
theorem handler_outlives_calls_iff (life : WindowLife) :
    Outlives life.run.trace ↔ life.whole.orderly = true := by
  have hquiet : life.whole.quiet = false := by simp [WindowLife.whole, WindowLife.afterCreate, Script.quiet]
  have hstart : Holds ⟨true, true, []⟩ 0 := ⟨rfl, rfl, nofun, rfl⟩
  have h := life.whole.outcome_run hstart
  rw [← WindowLife.run_eq, hquiet] at h
  cases horderly : life.whole.orderly with
  | true =>
    rw [horderly] at h
    exact iff_of_true (Freed.outlives h) rfl
  | false =>
    rw [horderly] at h
    exact iff_of_false (DropsRunning.not_outlives h) nofun

theorem handler_dropped_in_call :
    ¬ Outlives (WindowLife.mk (false, .done, .done)
      (.send 0x10 true (.destroy .done false .done .done) .done) (.done, false, .done, .done)).run.trace :=
  DropsRunning.not_outlives
    ⟨[.called, .returned, .called, .called, .returned], [.returned], rfl, by decide, by decide⟩

end WindowsErg.Desktop
