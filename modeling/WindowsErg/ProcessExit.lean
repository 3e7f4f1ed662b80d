import WindowsErg.CallProgram
import WindowsErg.SystemClock
import WindowsErg.TextScan

/-! Whether a process has exited and with which code, `src/process/processes.rs`. -/
namespace WindowsErg.Process
open TextScan CallProgram SystemClock

structure OpenFailed where
  pid : UInt32
  reason : Text
  errorCode : Option Int32
  deriving DecidableEq

inductive Lifecycle where
  | running
  | exited (code : UInt32)
  deriving DecidableEq

inductive ExitCall where
  | waitForSingleObject (milliseconds : UInt32)
  | getExitCodeProcess

abbrev ExitCall.Answer : ExitCall → Type
  | .waitForSingleObject _ => UInt32
  | .getExitCodeProcess => Except Int32 UInt32

def stillActive : UInt32 := 259

def waitObject0 : UInt32 := 0

def waitTimeout : UInt32 := 258

def waitFailed : UInt32 := 0xFFFFFFFF

def infinite : UInt32 := 0xFFFFFFFF

/-- What a wait on the process's handle returns. It is signaled exactly after the exit; before that
only a wait that can time out returns. -/
def WaitReturns (milliseconds : UInt32) : Lifecycle → UInt32 → Prop
  | .running, answer => milliseconds ≠ infinite ∧ answer = waitTimeout
  | .exited _, answer => answer = waitObject0

def Lifecycle.exitCode : Lifecycle → UInt32
  | .running => stillActive
  | .exited code => code

def exitStep : (c : ExitCall) → Lifecycle → c.Answer → Lifecycle → Prop
  | .waitForSingleObject milliseconds, s, answer, s' => WaitReturns milliseconds s answer ∧ s' = s
  | .getExitCodeProcess, s, answer, s' => answer = .ok s.exitCode ∧ s' = s

def lifecycleSystem : System ExitCall ExitCall.Answer Lifecycle where
  step := exitStep
  interfere s s' := s = .running ∧ ∃ code, s' = .exited code

abbrev ExitProgram (α : Type) := Program ExitCall ExitCall.Answer α

def waitForSingleObject (milliseconds : UInt32) : ExitProgram UInt32 :=
  Program.request (ExitCall.waitForSingleObject milliseconds)

def getExitCodeProcess : ExitProgram (Except Int32 UInt32) :=
  Program.request ExitCall.getExitCodeProcess

def getExitCodeValue (pid : UInt32) : ExitProgram (Except OpenFailed UInt32) := do
  match ← getExitCodeProcess with
  | .error code => pure (.error ⟨pid, "Failed to get exit code".toList, some code⟩)
  | .ok exitCode => pure (.ok exitCode)

def exitCode (pid : UInt32) : ExitProgram (Except OpenFailed (Option UInt32)) := do
  match ← getExitCodeValue pid with
  | .error e => pure (.error e)
  | .ok exitCode => pure (.ok (if exitCode = stillActive then none else some exitCode))

def isRunning (pid : UInt32) : ExitProgram (Except OpenFailed Bool) := do
  match ← exitCode pid with
  | .ok (some _) => pure (.ok false)
  | .ok none => pure (.ok true)
  | .error e => pure (.error e)

def signaledExitCode (pid : UInt32) : ExitProgram (Except OpenFailed UInt32) := do
  match ← getExitCodeValue pid with
  | .error e => pure (.error e)
  | .ok exitCode =>
    if exitCode = stillActive then
      pure (.error ⟨pid, "Process wait completed but exit code is still active".toList, none⟩)
    else pure (.ok exitCode)

def waitForExit (pid : UInt32) : ExitProgram (Except OpenFailed UInt32) := do
  let waitResult ← waitForSingleObject infinite
  if waitResult = waitObject0 then signaledExitCode pid
  else if waitResult = waitFailed then
    pure (.error ⟨pid, "Failed to wait for process exit".toList, none⟩)
  else pure (.error ⟨pid, "Unexpected wait result while waiting for process exit".toList, none⟩)

/-- A timeout that does not fit 32 bits becomes the largest number, which means no timeout. -/
def waitForExitTimeout (pid : UInt32) (timeout : Duration) : ExitProgram (Except OpenFailed (Option UInt32)) := do
  let waitResult ← waitForSingleObject (UInt32.ofNat (min timeout.asMillis (2^32-1)))
  if waitResult = waitTimeout then pure (.ok none)
  else if waitResult = waitObject0 then
    match ← signaledExitCode pid with
    | .error e => pure (.error e)
    | .ok exitCode => pure (.ok (some exitCode))
  else if waitResult = waitFailed then
    pure (.error ⟨pid, "Failed to wait for process exit with timeout".toList, none⟩)
  else pure (.error ⟨pid, "Unexpected wait result while waiting for process exit".toList, none⟩)

section Returns
variable {sys : System ExitCall ExitCall.Answer Lifecycle} {s : Lifecycle}
  (hsys : sys.step = exitStep) (hquiet : ∀ s', ¬ sys.interfere s s') (pid : UInt32)
include hsys hquiet

theorem getExitCodeValue_returns : Returns sys (getExitCodeValue pid) s (.ok s.exitCode) := by
  have hcall : Returns sys getExitCodeProcess s (.ok s.exitCode) := by
    apply returns_request hquiet
    intro answer s'
    rw [hsys]
    exact Iff.rfl
  exact hcall.bind (returns_done hquiet _)

theorem exitCode_returns :
    Returns sys (exitCode pid) s
      (.ok (if s.exitCode = stillActive then none else some s.exitCode)) :=
  (getExitCodeValue_returns hsys hquiet pid).bind (returns_done hquiet _)

theorem isRunning_returns :
    Returns sys (isRunning pid) s (.ok (decide (s.exitCode = stillActive))) := by
  apply (exitCode_returns hsys hquiet pid).bind
  by_cases hcode : s.exitCode = stillActive
  · rw [if_pos hcode, decide_eq_true hcode]
    exact returns_done hquiet _
  · rw [if_neg hcode, decide_eq_false hcode]
    exact returns_done hquiet _

def stillActiveError (pid : UInt32) : OpenFailed :=
  ⟨pid, "Process wait completed but exit code is still active".toList, none⟩

theorem signaledExitCode_returns :
    Returns sys (signaledExitCode pid) s
      (if s.exitCode = stillActive then .error (stillActiveError pid) else .ok s.exitCode) := by
  apply (getExitCodeValue_returns hsys hquiet pid).bind
  dsimp only
  split
  · exact returns_done hquiet _
  · exact returns_done hquiet _

end Returns

section Exited
variable (pid code : UInt32)

theorem quiet_exited (s' : Lifecycle) : ¬ lifecycleSystem.interfere (.exited code) s' := by
  rintro ⟨hrunning, -⟩
  cases hrunning

theorem waitForSingleObject_exited (milliseconds : UInt32) :
    Returns lifecycleSystem (waitForSingleObject milliseconds) (.exited code) waitObject0 :=
  returns_request (quiet_exited code) fun _ _ => Iff.rfl

theorem signaledExitCode_exited :
    Returns lifecycleSystem (signaledExitCode pid) (.exited code)
      (if code = stillActive then .error (stillActiveError pid) else .ok code) :=
  signaledExitCode_returns rfl (quiet_exited code) pid

theorem waitForExit_exited :
    Returns lifecycleSystem (waitForExit pid) (.exited code)
      (if code = stillActive then .error (stillActiveError pid) else .ok code) :=
  (waitForSingleObject_exited code infinite).bind (signaledExitCode_exited pid code)

theorem waitForExitTimeout_exited (timeout : Duration) :
    Returns lifecycleSystem (waitForExitTimeout pid timeout) (.exited code)
      (if code = stillActive then .error (stillActiveError pid) else .ok (some code)) := by
  apply (waitForSingleObject_exited code _).bind
  apply (signaledExitCode_exited pid code).bind
  by_cases hcode : code = stillActive
  · rw [if_pos hcode, if_pos hcode]
    exact returns_done (quiet_exited code) _
  · rw [if_neg hcode, if_neg hcode]
    exact returns_done (quiet_exited code) _

end Exited

theorem runs_running_iff {α : Type} {p : ExitProgram α} {value : α}
    (h : Returns lifecycleSystem.alone p .running value) (result : α) :
    Runs lifecycleSystem p .running result .running ↔ result = value := by
  constructor
  · intro hrun
    -- an exit cannot be undone, neither by the others nor by a call
    have hmove (s s' : Lifecycle) : lifecycleSystem.interfere s s' → ¬ s' = .running := by
      rintro ⟨-, code, rfl⟩ hs
      cases hs
    have hstep (c : ExitCall) (s : Lifecycle) (x : c.Answer) (s' : Lifecycle) :
        lifecycleSystem.step c s x s' → s' = .running → s = .running := by
      intro hstep hs
      cases c with
      | waitForSingleObject milliseconds => exact hstep.2 ▸ hs
      | getExitCodeProcess => exact hstep.2 ▸ hs
    exact (h.unique _ _ (hrun.alone hmove hstep rfl).2).1
  · rintro rfl
    exact h.runs.of_alone

structure ExitReported (pid : UInt32) (timeout : Duration) (code : UInt32) : Prop where
  waitForExit : Returns lifecycleSystem (waitForExit pid) (.exited code) (.ok code)
  waitForExitTimeout :
    Returns lifecycleSystem (waitForExitTimeout pid timeout) (.exited code) (.ok (some code))
  exitCode : Returns lifecycleSystem (exitCode pid) (.exited code) (.ok (some code))
  isRunning : Returns lifecycleSystem (isRunning pid) (.exited code) (.ok false)

/-- The answers are right exactly if the exit code is not the number of a running process. While the
process runs they always are. -/
theorem exit_status_consistent_iff (pid : UInt32) (timeout : Duration) (code : UInt32) :
    (ExitReported pid timeout code ↔ code ≠ 259) ∧
    (∀ result, Runs lifecycleSystem (exitCode pid) .running result .running ↔ result = .ok none) ∧
    ∀ result, Runs lifecycleSystem (isRunning pid) .running result .running ↔ result = .ok true := by
  have hexit := exitCode_returns rfl (quiet_exited code) pid
  have hrun := isRunning_returns rfl (quiet_exited code) pid
  refine ⟨⟨fun h hcode => ?_, fun hcode => ?_⟩, ?_, ?_⟩
  · have hactive : code = stillActive := hcode
    have hsame := h.exitCode.eq hexit
    rw [Lifecycle.exitCode, if_pos hactive] at hsame
    cases hsame
  · have hne : ¬ code = stillActive := hcode
    have hwait := waitForExit_exited pid code
    have hwaitTimeout := waitForExitTimeout_exited pid code timeout
    rw [Lifecycle.exitCode, if_neg hne] at hexit
    rw [Lifecycle.exitCode, decide_eq_false hne] at hrun
    rw [if_neg hne] at hwait hwaitTimeout
    exact ⟨hwait, hwaitTimeout, hexit, hrun⟩
  · exact runs_running_iff (exitCode_returns rfl (fun _ => id) pid)
  · exact runs_running_iff (isRunning_returns rfl (fun _ => id) pid)

/-- A process that exits with 259 is taken for running, and the wait for it fails. -/
theorem exit_status_259 :
    Returns lifecycleSystem (exitCode 4) (.exited 259) (.ok none) ∧
      Returns lifecycleSystem (isRunning 4) (.exited 259) (.ok true) ∧
      Returns lifecycleSystem (waitForExit 4) (.exited 259) (.error (stillActiveError 4)) :=
  ⟨exitCode_returns rfl (quiet_exited 259) 4, isRunning_returns rfl (quiet_exited 259) 4,
    waitForExit_exited 4 259⟩

end WindowsErg.Process
