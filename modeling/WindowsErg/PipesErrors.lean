import WindowsErg.PipesServer

/-! How failed calls are reported, `src/pipes/error_map.rs`. -/
namespace WindowsErg.Pipes
open TextScan CallProgram

inductive PipeClientError where
  | create (pipeName operation : Text) (errorCode : Int32)
  | pipe (e : PipeServerError)
  deriving DecidableEq

/-- How the calls of a connecting client end; without a security descriptor none is converted. -/
structure ClientAnswers where
  waitNamedPipe : Except UInt32 Unit := .ok ()
  convertDescriptor : Option (Except WinError Unit) := none
  createFile : Except WinError Unit := .ok ()

def connectClient (pipeName : Text) (answers : ClientAnswers) : Except PipeClientError Unit :=
  match answers.waitNamedPipe with
  | .error code => .error (.pipe (mapPipeWindowsError "connect".toList pipeName code.toInt32))
  | .ok () =>
    match answers.convertDescriptor with
    | some (.error err) =>
      .error (.create pipeName "security_descriptor".toList err.hresult.toInt32)
    | _ =>
      match answers.createFile with
      | .error err =>
        .error (.pipe (mapPipeWindowsError "connect".toList pipeName err.hresult.toInt32))
      | .ok () => .ok ()

/-- The answers of the system to a server that waits for a client; `lastError` is what
`GetLastError` returns once `CancelIoEx` is done. -/
structure ServerAnswers where
  createEvent : Except UInt32 Unit := .ok ()
  connectNamedPipe : Except UInt32 Unit := .error errorIoPending
  awaitClient : Except UInt32 Unit := .ok ()
  waited : UInt32 := waitObject0
  lastError : UInt32 := 0
  overlappedResult : Except WinError Unit := .ok ()
  disconnectNamedPipe : Except UInt32 Unit := .ok ()
  clientProcessId : Option UInt32 := some 0
  openProcess : Bool := true
  processPath : Option Text := none

def ServerAnswers.answer (a : ServerAnswers) : (c : PipeCall) → c.Answer
  | .createEvent => a.createEvent
  | .resetEvent => .ok ()
  | .connectNamedPipe | .listen => ⟨a.connectNamedPipe, 0⟩
  | .awaitClient _ => a.awaitClient
  | .readFile _ | .writeFile _ => ⟨.ok (), 0⟩
  | .waitForSingleObject .. | .waitForMultipleObjects .. => a.waited
  | .getOverlappedResult .. => ⟨a.overlappedResult, 0, []⟩
  | .cancelIoEx _ => ()
  | .disconnectNamedPipe => a.disconnectNamedPipe
  | .getNamedPipeClientProcessId => a.clientProcessId
  | .openProcess _ => a.openProcess
  | .processPath _ => a.processPath
  | .getLastError => a.lastError

def ServerAnswers.result {α : Type} (a : ServerAnswers) : PipeProgram α → α
  | .done result => result
  | .call c next => a.result (next (a.answer c))

theorem ServerAnswers.result_bind {α β : Type} (a : ServerAnswers) (p : PipeProgram α)
    (f : α → PipeProgram β) : a.result (p >>= f) = a.result (f (a.result p)) := by
  induction p with
  | done => rfl
  | call c next ih => exact ih (a.answer c)

inductive TimedConnect where
  | withTimeout (timeout : Duration)
  | withWait
  | withWaitTimeout (interruptible : Bool) (timeout : Duration)

def NamedPipeServer.connectBy (server : NamedPipeServer) :
    Option TimedConnect → PipeProgram (Except PipeServerError Unit)
  | none => server.connect
  | some (.withTimeout timeout) => server.connectWithTimeout timeout
  | some .withWait => server.connectWithWait
  | some (.withWaitTimeout interruptible timeout) =>
    server.connectWithWaitTimeout interruptible timeout

inductive FailedCall where
  | waitNamedPipe
  | convertDescriptor
  | createFile
  | connectNamedPipe (how : Option TimedConnect)
  | awaitClient
  | createEvent (how : TimedConnect)
  | waitForMultipleObjects (how : TimedConnect) (lastError : UInt32)
  | getOverlappedResult (how : TimedConnect)
  | clientProcessId (how : Option TimedConnect)
  | openProcess (how : Option TimedConnect)
  | processPath (how : Option TimedConnect)
  | disconnectNamedPipe

namespace FailedCall
variable (server : NamedPipeServer)

/-- What comes of a connect or disconnect in which this call, the first to do so, fails with
`code`. -/
def outcome (code : UInt32) : FailedCall → Except PipeClientError Unit
  | waitNamedPipe => connectClient server.pipeName { waitNamedPipe := .error code }
  | convertDescriptor =>
    connectClient server.pipeName { convertDescriptor := some (.error (.fromWin32 code)) }
  | createFile => connectClient server.pipeName { createFile := .error (.fromWin32 code) }
  | connectNamedPipe how => connected how { connectNamedPipe := .error code }
  | awaitClient => connected none { awaitClient := .error code }
  | createEvent how => connected how { createEvent := .error code }
  | waitForMultipleObjects how lastError => connected how { waited := waitFailed, lastError }
  | getOverlappedResult how => connected how { overlappedResult := .error (.fromWin32 code) }
  | clientProcessId how => connected how { clientProcessId := none }
  | openProcess how => connected how { openProcess := false }
  | processPath how => connected how { processPath := none }
  | disconnectNamedPipe =>
    ({ disconnectNamedPipe := .error code : ServerAnswers }.result server.disconnect).mapError .pipe
where
  connected (how : Option TimedConnect) (a : ServerAnswers) : Except PipeClientError Unit :=
    (a.result (server.connectBy how)).mapError .pipe

def operation : FailedCall → Text
  | disconnectNamedPipe => "disconnect".toList
  | _ => "connect".toList

/-- A pipe that is connected already and an operation under way are no failures. -/
def Fails (code : UInt32) : FailedCall → Prop
  | connectNamedPipe _ => code ≠ errorPipeConnected ∧ code ≠ errorIoPending
  | awaitClient => code ≠ errorPipeConnected
  | _ => True

def Direct (code : UInt32) : FailedCall → Prop
  | waitNamedPipe | connectNamedPipe _ | awaitClient | getOverlappedResult _
    | disconnectNamedPipe => True
  | waitForMultipleObjects _ lastError => lastError = code
  -- only clients of a server with an allow-list are looked at
  | clientProcessId _ | openProcess _ | processPath _ => server.allowedExecutables = []
  | convertDescriptor | createFile | createEvent _ => False

end FailedCall

def PipeServerError.errorCode : PipeServerError → Option Int32
  | .connect _ _ errorCode | .io _ _ errorCode => errorCode
  | .timeout .. | .accessDenied .. | .other _ => none

theorem errorCode_mapPipeWindowsError (operation pipeName : Text) (code : Int32) :
    (mapPipeWindowsError operation pipeName code).errorCode = if code = 121 then none else some code := by
  unfold mapPipeWindowsError
  repeat' split
  all_goals rfl

theorem mapPipeWindowsError_injective (operation pipeName : Text) :
    Function.Injective (mapPipeWindowsError operation pipeName) := by
  intro first second h
  have hcode := congrArg PipeServerError.errorCode h
  rw [errorCode_mapPipeWindowsError, errorCode_mapPipeWindowsError] at hcode
  grind

def ReportsCode (pipeName operation : Text) (code : UInt32) (result : Except PipeClientError Unit) : Prop :=
  ∀ e, result = .error e →
    ∃ reported, e = .pipe reported ∧
      reported = mapPipeWindowsError operation pipeName code.toInt32 ∧
      (reported.errorCode = none ∨ reported.errorCode = some code.toInt32)

theorem mapPipeWindowsError_ne_accessDenied (operation pipeName : Text) (code : Int32)
    (resource denied : Text) (reason : Option Text) :
    mapPipeWindowsError operation pipeName code ≠ .accessDenied resource denied reason := by
  unfold mapPipeWindowsError
  repeat' split
  all_goals nofun

theorem mapPipeWindowsError_ne_other (operation pipeName : Text) (code : Int32) (message : Text) :
    mapPipeWindowsError operation pipeName code ≠ .other message := by
  unfold mapPipeWindowsError
  repeat' split
  all_goals nofun

theorem reportsCode_mapped_iff (pipeName operation : Text) (code passed : UInt32) :
    ReportsCode pipeName operation code
        (.error (.pipe (mapPipeWindowsError operation pipeName passed.toInt32))) ↔ passed = code := by
  constructor
  · intro h
    obtain ⟨reported, hpipe, hreported, -⟩ := h _ rfl
    have hsame := (PipeClientError.pipe.inj hpipe).trans hreported
    exact congrArg Int32.toUInt32 (mapPipeWindowsError_injective _ _ hsame)
  · rintro rfl e he
    refine ⟨_, (Except.error.inj he).symm, rfl, ?_⟩
    rw [errorCode_mapPipeWindowsError]
    split
    · exact .inl rfl
    · exact .inr rfl

theorem or_and_distrib (first second mask : UInt32) :
    (first ||| second) &&& mask = first &&& mask ||| second &&& mask :=
  UInt32.toBitVec_inj.mp BitVec.and_or_distrib_right

structure Win32Code (code : UInt32) : Prop where
  ne_zero : code ≠ 0
  lt : code < 0x10000

namespace Win32Code
variable {code : UInt32} (h : Win32Code code)
include h

theorem and_low : code &&& 0xFFFF = code := by
  apply UInt32.toNat_inj.mp
  rw [UInt32.toNat_and]
  exact Nat.and_two_pow_sub_one_of_lt_two_pow (n := 16) (UInt32.lt_iff_toNat_lt.mp h.lt)

theorem and_high : code &&& 0xFFFF0000 = 0 := by
  rw [← h.and_low, UInt32.and_assoc]
  exact UInt32.and_zero

theorem hresult_eq : (WinError.fromWin32 code).hresult = code ||| 0x80070000 := by
  have hlt := UInt32.lt_iff_toNat_lt.mp h.lt
  have hsmall : ¬ (code = 0 ∨ 0x80000000 ≤ code) := by
    rintro (hzero | hlarge)
    · exact h.ne_zero hzero
    · have hle := UInt32.le_iff_toNat_le.mp hlarge
      change 0x80000000 ≤ code.toNat at hle
      change code.toNat < 0x10000 at hlt
      omega
  unfold WinError.fromWin32
  rw [if_neg hsmall, h.and_low]

theorem hresult_and_high : (WinError.fromWin32 code).hresult &&& 0xFFFF0000 = 0x80070000 := by
  rw [h.hresult_eq, or_and_distrib, h.and_high]
  rfl

theorem hresult_ne : (WinError.fromWin32 code).hresult ≠ code := by
  intro hsame
  have hhigh := h.hresult_and_high
  rw [hsame, h.and_high] at hhigh
  exact absurd hhigh (by decide)

theorem win32Code_eq : win32Code (.fromWin32 code) = some code := by
  unfold win32Code
  rw [if_pos h.hresult_and_high, h.hresult_eq, or_and_distrib, h.and_low]
  exact congrArg some UInt32.or_zero

end Win32Code

theorem not_reportsCode_other (pipeName operation : Text) (code : UInt32) (message : Text) :
    ¬ ReportsCode pipeName operation code (.error (.pipe (.other message))) := by
  intro h
  obtain ⟨reported, hpipe, hreported, -⟩ := h _ rfl
  exact mapPipeWindowsError_ne_other _ _ _ message
    (hreported.symm.trans (PipeClientError.pipe.inj hpipe).symm)

theorem reportsCode_checked_iff (server : NamedPipeServer) (operation : Text) (code : UInt32)
    {a : ServerAnswers} {reason : Text}
    (hcheck : a.result server.checkClientExecutable = .error (server.accessDenied reason)) :
    ReportsCode server.pipeName operation code
        ((a.result server.validateConnectedClient).mapError .pipe) ↔
      server.allowedExecutables = [] := by
  unfold NamedPipeServer.validateConnectedClient
  cases hlist : server.allowedExecutables with
  | nil => exact iff_of_true nofun rfl
  | cons executable others =>
    refine iff_of_false (fun h => ?_) nofun
    rw [if_neg (by simp), ServerAnswers.result_bind, hcheck] at h
    dsimp only at h
    rw [ServerAnswers.result_bind] at h
    obtain ⟨reported, hpipe, hreported, -⟩ := h _ rfl
    exact mapPipeWindowsError_ne_accessDenied _ _ _ _ _ _
      (hreported.symm.trans (PipeClientError.pipe.inj hpipe).symm)

theorem reportsCode_mapped (pipeName operation : Text) (code : UInt32) :
    ReportsCode pipeName operation code
      (.error (.pipe (mapPipeWindowsError operation pipeName code.toInt32))) :=
  (reportsCode_mapped_iff pipeName operation code code).mpr rfl

namespace FailedCall
variable (server : NamedPipeServer) {code : UInt32}

theorem outcome_awaitClient (hfails : awaitClient.Fails code) :
    awaitClient.outcome server code = .error (.pipe (server.connectError code)) := by
  have hconnected : code ≠ errorPipeConnected := hfails
  change Except.mapError PipeClientError.pipe
    (ServerAnswers.result _ (if code ≠ errorPipeConnected then _ else _)) = _
  rw [if_pos hconnected]
  rfl

theorem outcome_connectNamedPipe (how : Option TimedConnect)
    (hfails : (connectNamedPipe how).Fails code) :
    (connectNamedPipe how).outcome server code = .error (.pipe (server.connectError code)) := by
  obtain ⟨hconnected, hpending⟩ := hfails
  rcases how with _ | timeout | _ | ⟨interruptible, timeout⟩
  · -- the blocking call: a pending answer would wait for the client
    change Except.mapError PipeClientError.pipe
      (ServerAnswers.result _ ((if code = errorIoPending then _ else _) >>= _)) = _
    rw [if_neg hpending]
    change Except.mapError PipeClientError.pipe
      (ServerAnswers.result _ (if code ≠ errorPipeConnected then _ else _)) = _
    rw [if_pos hconnected]
    rfl
  all_goals
    change Except.mapError PipeClientError.pipe
      (ServerAnswers.result _ (if code ≠ errorIoPending ∧ code ≠ errorPipeConnected then _ else _)) = _
    rw [if_pos ⟨hpending, hconnected⟩]
    rfl

theorem outcome_getOverlappedResult (how : TimedConnect) (hcode : Win32Code code) :
    (getOverlappedResult how).outcome server code = .error (.pipe (server.connectError code)) := by
  have hout : (getOverlappedResult how).outcome server code =
      .error (.pipe (server.connectError ((win32Code (.fromWin32 code)).getD
        (WinError.fromWin32 code).hresult))) := by
    rcases how with timeout | _ | ⟨interruptible, timeout⟩ <;> rfl
  rw [hout, hcode.win32Code_eq, Option.getD_some]

end FailedCall

/-- A failed call is reported by its own code exactly when the code is passed on as it was
returned. -/
theorem pipe_errors_report_code_iff (server : NamedPipeServer) (call : FailedCall) {code : UInt32}
    (hcode : Win32Code code) (hfails : call.Fails code) :
    ReportsCode server.pipeName call.operation code (call.outcome server code) ↔
      call.Direct server code := by
  cases call with
  | waitNamedPipe | disconnectNamedPipe => exact iff_of_true (reportsCode_mapped _ _ code) trivial
  | awaitClient =>
    rw [FailedCall.outcome_awaitClient server hfails]
    exact iff_of_true (reportsCode_mapped _ _ code) trivial
  | connectNamedPipe how =>
    rw [FailedCall.outcome_connectNamedPipe server how hfails]
    exact iff_of_true (reportsCode_mapped _ _ code) trivial
  | getOverlappedResult how =>
    rw [FailedCall.outcome_getOverlappedResult server how hcode]
    exact iff_of_true (reportsCode_mapped _ _ code) trivial
  -- the mapper gets an `HRESULT`, which is no Win32 code
  | createFile => exact (reportsCode_mapped_iff _ _ code _).trans (iff_of_false hcode.hresult_ne id)
  | convertDescriptor =>
    refine iff_of_false (fun h => ?_) id
    obtain ⟨reported, hpipe, -⟩ := h _ rfl
    exact nomatch hpipe
  | createEvent how =>
    refine iff_of_false ?_ id
    rcases how with timeout | _ | ⟨interruptible, timeout⟩ <;> exact not_reportsCode_other _ _ _ _
  -- `CancelIoEx` comes between the failed wait and `GetLastError`
  | waitForMultipleObjects how lastError =>
    rcases how with timeout | _ | ⟨interruptible, timeout⟩ <;>
      exact reportsCode_mapped_iff _ _ code lastError
  | clientProcessId how | openProcess how | processPath how =>
    rcases how with _ | timeout | _ | ⟨interruptible, timeout⟩ <;>
      exact reportsCode_checked_iff server _ code rfl

def plainServer : NamedPipeServer := ⟨"p".toList, [], none⟩

theorem pipe_errors_report_wait_timeout :
    ReportsCode plainServer.pipeName "connect".toList 121
      (FailedCall.waitNamedPipe.outcome plainServer 121) :=
  (pipe_errors_report_code_iff plainServer .waitNamedPipe ⟨by decide, by decide⟩ trivial).mpr trivial

/-- A pipe that is busy when the client opens it: the code comes wrapped in an `HRESULT`. -/
theorem busy_pipe_reported_wrapped :
    FailedCall.createFile.outcome plainServer 231 =
        .error (.pipe (.connect plainServer.pipeName none (some 0x800700E7))) ∧
      ¬ ReportsCode plainServer.pipeName "connect".toList 231
        (FailedCall.createFile.outcome plainServer 231) := by
  have hcode : Win32Code 231 := ⟨by decide, by decide⟩
  exact ⟨rfl, (reportsCode_mapped_iff _ _ 231 _).not.mpr hcode.hresult_ne⟩

end WindowsErg.Pipes
